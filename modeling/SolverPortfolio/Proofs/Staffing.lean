import SolverPortfolio.Proofs.Arising
import SolverPortfolio.Proofs.Handover
import SolverPortfolio.Proofs.KnownSolvers

/-
# Only known solvers are launched

A launch looks up the solver of a worker, and asks for nothing if there is none: no
other step adds a request. So a run in which every generation of every worker was
asked for has looked up no solver in vain. The names that a run looks up are those
of the solvers with a core of their own, those in the queue, and those of its own
workers, which fill the queue again once it is empty; and if the schedule names
known solvers only, then all of them are known.

Main definitions: `Run.AskedFor`, `Run.Staffed`.
Main statements: `Run.Staffed.serveSlot`, `Run.Staffed.advance`, `Run.Staffed.handle`,
`Situation.reachable_staffed`, `Situation.planned_staffed`.
-/

namespace SolverPortfolio

namespace Run

variable {α : Type} {table : SolverTable} {now : Instant} {r r' : Run α} {id : WorkerId}
  {w : Worker}

/-- The launch of a generation was asked for, with the solver that was looked up. -/
def AskedFor (r : Run α) (id : WorkerId) (name : String) (generation : Nat) : Prop :=
  ∃ request, .launch request ∈ r.effects ∧ request.worker = id ∧
    request.generation = generation ∧ r.table.find? name = some request.solver

/-- All solvers that the run has looked up and will look up are known. -/
structure Staffed (table : SolverTable) (r : Run α) : Prop where
  table_eq : r.table = table
  /-- Every generation of every worker was asked for. -/
  askedFor : ∀ id w, r.worker? id = some w →
    ∀ generation ≤ w.generation, r.AskedFor id w.name generation
  queue : table.Knows (r.queue.map (·.solver))

/-- The solver of a worker is known. -/
theorem Staffed.contains (h : r.Staffed table) (hw : r.worker? id = some w) :
    table.contains w.name = true := by
  obtain ⟨request, -, -, -, hfind⟩ := h.askedFor id w hw 0 (Nat.zero_le _)
  rw [SolverTable.contains, ← h.table_eq, hfind]
  rfl

/-- What was asked for stays asked for. -/
theorem AskedFor.mono {name : String} {generation : Nat} (h : r.AskedFor id name generation)
    (htable : r'.table = r.table)
    (heffects : ∀ request, .launch request ∈ r.effects → .launch request ∈ r'.effects) :
    r'.AskedFor id name generation := by
  obtain ⟨request, hrequest, hid, hgeneration, hfind⟩ := h
  exact ⟨request, heffects request hrequest, hid, hgeneration, htable ▸ hfind⟩

/-- A run stays staffed if its workers keep their names and generations. -/
theorem Staffed.mono (h : r.Staffed table) (htable : r'.table = r.table)
    (hqueue : r'.queue = r.queue)
    (heffects : ∀ request, .launch request ∈ r.effects → .launch request ∈ r'.effects)
    (hworker : ∀ id w', r'.worker? id = some w' →
      ∃ w, r.worker? id = some w ∧ w'.name = w.name ∧ w'.generation = w.generation) :
    r'.Staffed table where
  table_eq := htable.trans h.table_eq
  askedFor := by
    intro id w' hw' generation hle
    obtain ⟨w, hw, hname, hgeneration⟩ := hworker id w' hw'
    rw [hname]
    exact (h.askedFor id w hw generation (hgeneration ▸ hle)).mono htable heffects
  queue := hqueue ▸ h.queue

/-- A run stays staffed if one worker changes and keeps its name and its generation. -/
theorem Staffed.modify (h : r.Staffed table) {f : Worker → Worker} (htable : r'.table = r.table)
    (hqueue : r'.queue = r.queue)
    (heffects : ∀ request, .launch request ∈ r.effects → .launch request ∈ r'.effects)
    (hworkers : r'.workers = r.workers.modify id f)
    (hf : ∀ w, (f w).name = w.name ∧ (f w).generation = w.generation) : r'.Staffed table := by
  refine h.mono htable hqueue heffects fun other w' hw' => ?_
  rw [worker?, hworkers] at hw'
  rcases getElem?_modify_cases hw' with ⟨-, hw⟩ | ⟨-, w, hw, rfl⟩
  · exact ⟨w', hw, rfl, rfl⟩
  · exact ⟨w, hw, hf w⟩

/-! ## Responses and interventions -/

/-- A response keeps a run staffed: no worker goes on to another generation. -/
theorem Staffed.response {e : RunEvent} (h : r.Staffed table) (hr : r.Numbered)
    (hresponse : Response now r e r') : r'.Staffed table := by
  have hkept : r'.table = r.table ∧ r'.queue = r.queue := by
    cases hresponse <;> exact ⟨rfl, rfl⟩
  refine h.mono hkept.1 hkept.2 (fun request => hresponse.launch_mem.mpr) fun id w' hw' => ?_
  obtain ⟨hlt, -⟩ := List.getElem?_eq_some_iff.mp hw'
  rw [hresponse.length_workers] at hlt
  have hw : r.worker? id = some r.workers[id] := List.getElem?_eq_getElem hlt
  obtain ⟨v, hv, hturn⟩ := hresponse.turn hr hw
  cases Option.some.inj (hv.symm.trans hw')
  exact ⟨_, hw, hturn.keeps.2.1, hturn.generation.resolve_right nofun⟩

/-- An intervention keeps a run staffed: a restart asks for the generation that it begins. -/
theorem Staffed.intervention (h : r.Staffed table) (hi : Intervention now r r') :
    r'.Staffed table := by
  cases hi with
  | finish cause hw =>
    exact h.modify rfl rfl (fun _ => List.mem_append_right _) rfl fun _ => ⟨rfl, rfl⟩
  | @restart w best n hw hs =>
    obtain ⟨solver, hfind⟩ : ∃ solver, r.table.find? w.name = some solver :=
      Option.isSome_iff_exists.mp (h.table_eq ▸ h.contains hw)
    have hold {id : WorkerId} {name : String} {generation : Nat}
        (hasked : r.AskedFor id name generation) : AskedFor { r with
          workers := r.workers.modify w.id (·.beginRestart r.settings.switchSearch)
          effects := (r.table.find? w.name).toList.map (fun solver =>
              .launch (r.request (w.beginRestart r.settings.switchSearch) solver now)) ++
            (.notice n :: (w.process.toList.map .release ++ r.effects)) } id name generation :=
      hasked.mono rfl fun request hrequest => List.mem_append_right _ <|
        List.mem_cons_of_mem _ <| List.mem_append_right _ hrequest
    refine ⟨h.table_eq, fun id w' hw' generation hle => ?_, h.queue⟩
    rcases getElem?_modify_cases hw' with ⟨-, hv⟩ | ⟨rfl, v, hv, rfl⟩
    · exact hold (h.askedFor id w' hv generation hle)
    · cases Option.some.inj (hv.symm.trans hw)
      rcases Nat.lt_or_eq_of_le hle with hlt | rfl
      · exact hold (h.askedFor w.id w hw generation (Nat.le_of_lt_succ hlt))
      · refine ⟨r.request (w.beginRestart r.settings.switchSearch) solver now,
          List.mem_append_left _ ?_, rfl, rfl, hfind⟩
        rw [hfind]
        exact List.mem_singleton_self _

/-! ## The queue -/

/-- A worker that is added for a known solver is asked for. -/
theorem Staffed.addAndLaunch (h : r.Staffed table) {name : String}
    (hname : table.contains name = true) (placement : Placement) (now : Instant) :
    (r.addAndLaunch name placement now).Staffed table := by
  obtain ⟨w, effects, hn, heq⟩ := r.exists_newcomer name placement now
  rw [heq]
  refine ⟨h.table_eq, fun id v hv generation hle => ?_, h.queue⟩
  rcases getElem?_concat_cases hv with hv | ⟨rfl, rfl⟩
  · exact (h.askedFor id v hv generation hle).mono rfl fun _ => List.mem_append_right _
  · cases hn with
    | launched hfind =>
      cases Nat.le_zero.mp hle
      exact ⟨_, List.mem_append_left _ (List.mem_singleton_self _), rfl, rfl, hfind⟩
    | unknown hfind n =>
      rw [SolverTable.contains, ← h.table_eq, hfind] at hname
      cases hname

/-- Workers are added for several known solvers. -/
theorem Staffed.addAll (h : r.Staffed table) {names : List String} (hnames : table.Knows names)
    (placement : Placement) (now : Instant) :
    (names.foldl (fun r name => r.addAndLaunch name placement now) r).Staffed table := by
  induction names generalizing r with
  | nil => exact h
  | cons name names ih =>
    refine ih (h.addAndLaunch (hnames name List.mem_cons_self) placement now) ?_
    exact fun other hother => hnames other (List.mem_cons_of_mem _ hother)

/-- A report keeps a run staffed. -/
theorem Staffed.note (h : r.Staffed table) (n : Notice) : (r.note n).Staffed table :=
  h.mono rfl rfl (fun _ => List.mem_cons_of_mem _) fun _ w hw => ⟨w, hw, rfl, rfl⟩

/-- Which slot is served, what is left over and who is suspended is all the same. -/
theorem Staffed.shift (h : r.Staffed table) (current : Option CurrentSlot) (carry : Duration)
    (suspended : List WorkerId) : Staffed table { r with current, carry, suspended } :=
  ⟨h.table_eq, h.askedFor, h.queue⟩

/-- A worker that goes on needs no launch. -/
theorem Staffed.resumeWorker (h : r.Staffed table) (w : Worker) :
    (r.resumeWorker w).Staffed table := by
  obtain ⟨n, heq⟩ := resumeWorker_eq r w
  rw [heq]
  refine h.modify rfl rfl (fun _ hrequest => ?_) rfl fun _ => ⟨rfl, rfl⟩
  exact List.mem_cons_of_mem _ (List.mem_append_right _ hrequest)

/-- A new worker for the slot of a known solver is asked for. -/
theorem Staffed.serveNewWorker {slot : Slot α} (h : r.Staffed table)
    (hslot : table.contains slot.solver = true) (allotted : Duration) (deadline now : Instant) :
    (r.serveNewWorker slot allotted deadline now).run.Staffed table := by
  have hadded := h.addAndLaunch hslot .queued now
  unfold Run.serveNewWorker
  dsimp only
  split
  · exact hadded.shift _ _ _
  · exact hadded.shift _ _ _

variable [Timed α] {slot : Slot α}

/-- The slots that share the time left name workers of the run. -/
theorem Staffed.sharedSlots (h : r.Staffed table) (hsuspended : ∀ id ∈ r.suspended,
    r.isSuspended id = true) (now : Instant) :
    table.Knows ((r.sharedSlots now).map (·.solver)) := by
  intro name hname
  rw [Run.sharedSlots, List.map_map] at hname
  obtain ⟨id, hid, rfl⟩ := List.mem_map.mp hname
  obtain ⟨w, hw, -⟩ := (r.isSuspended_iff id).mp (hsuspended id hid)
  rw [Function.comp_apply, nameOf, hw]
  exact h.contains hw

/-- The next slot is that of a known solver, whether it was queued or shares the time left. -/
theorem Staffed.nextSlot {slot? : Option (Slot α)} (h : r.Staffed table)
    (hn : r.nextSlot now = (slot?, r')) :
    r'.Staffed table ∧ ∀ slot ∈ slot?, table.contains slot.solver = true := by
  unfold Run.nextSlot at hn
  split at hn
  · next slot rest hqueue =>
    cases hn
    have hknown := h.queue
    rw [hqueue] at hknown
    refine ⟨⟨h.table_eq, h.askedFor, fun name hname => ?_⟩, fun slot hslot => ?_⟩
    · exact hknown name (List.mem_cons_of_mem _ hname)
    · cases hslot
      exact hknown _ List.mem_cons_self
  · next hqueue =>
    have htidy : Staffed table { r with suspended := r.suspended.filter r.isSuspended } :=
      h.shift _ _ _
    dsimp only at hn
    split at hn
    · cases hn
      exact ⟨htidy, nofun⟩
    · have hknown := htidy.sharedSlots (fun id hid => (List.mem_filter.mp hid).2) now
      split at hn
      · cases hn
        exact ⟨htidy, nofun⟩
      · next slot rest hslots =>
        cases hn
        rw [hslots] at hknown
        refine ⟨⟨h.table_eq, h.askedFor, fun name hname => ?_⟩, fun slot hslot => ?_⟩
        · exact hknown name (List.mem_cons_of_mem _ hname)
        · cases hslot
          exact hknown _ List.mem_cons_self

/-- Serving the slot of a known solver keeps a run staffed. -/
theorem Staffed.serveSlot (h : r.Staffed table) (hslot : table.contains slot.solver = true)
    (now : Instant) : (r.serveSlot slot now).run.Staffed table := by
  have hzero : Staffed table { r with carry := 0 } := h.shift _ _ _
  unfold Run.serveSlot
  dsimp only
  split
  · split
    · exact h
    · split
      · exact hzero.serveNewWorker hslot _ _ now
      · next w hlast =>
        split
        · split
          · exact (hzero.resumeWorker w).shift _ _ _
          · exact hzero.shift _ _ _
        · split
          · exact hzero.serveNewWorker hslot _ _ now
          · exact (hzero.note _).shift _ _ _
  · exact h.note _

/-- Taking slots keeps a run staffed. -/
theorem Staffed.takes {taken : List (Appointment α)} (h : r.Staffed table)
    (ht : Takes now r taken r') : r'.Staffed table := by
  induction ht with
  | nothing hn => exact (h.nextSlot hn).1
  | settled hn hs =>
    obtain ⟨hnext, hslot⟩ := h.nextSlot hn
    have hserved := hnext.serveSlot (hslot _ rfl) now
    rwa [hs] at hserved
  | passed hn hs _ ih =>
    obtain ⟨hnext, hslot⟩ := h.nextSlot hn
    have hserved := hnext.serveSlot (hslot _ rfl) now
    rw [hs] at hserved
    exact ih hserved

/-- Going on to the next slot keeps a run staffed. -/
theorem Staffed.advance (h : r.Staffed table) (now : Instant) :
    (r.advance now).Staffed table := by
  have hleft : Staffed table { r with current := none } := h.shift _ _ _
  obtain ⟨taken, hadvances⟩ := r.exists_advances now
  generalize r.advance now = r' at hadvances
  cases hadvances with
  | cancelled hc => exact hleft
  | endless he => exact hleft
  | takes ht => exact hleft.takes ht

/-! ## Events -/

/-- What is done when a worker has ended keeps a run staffed. -/
theorem Staffed.follow (h : r.Staffed table) (hf : Follow now r r') : r'.Staffed table := by
  cases hf with
  | report n => exact h.note n
  | handOver hc hw => exact (h.shift _ _ _).advance now

/-- What is done when workers have ended keeps a run staffed. -/
theorem Staffed.follows (h : r.Staffed table) (hf : Follows now r r') : r'.Staffed table := by
  induction hf with
  | refl => exact h
  | tail _ hnext ih => exact ih.follow hnext

/-- What the monitor does keeps a run staffed. -/
theorem Staffed.watch (h : r.Staffed table) (hwatch : Watch now r r') : r'.Staffed table := by
  induction hwatch with
  | refl => exact h
  | tail _ hnext ih => exact hnext.elim ih.follow ih.intervention

/-- Every event keeps a run staffed. -/
theorem Staffed.handle (h : r.Staffed table) (hr : r.Numbered) (e : RunEvent) (now : Instant)
    (hknown : ∀ m, e = .message m → ∃ w, r.worker? m.key.1 = some w) :
    (r.handle e now).Staffed table := by
  rcases handle_follows hr e now hknown with ⟨usage, -, hwatch⟩ | ⟨r₁, hresponse, hnext⟩
  · exact h.watch hwatch
  · have hanswered := h.response hr hresponse
    rcases hnext with ⟨hf, -⟩ | ⟨-, -, heq, -⟩
    · exact hanswered.follows hf
    · rw [heq]
      exact hanswered.advance now

end Run

namespace Situation

variable {α : Type} [Timed α] {P : Discipline} {o : Opening α} {s : Situation α}

/-- A run of a schedule that names known solvers is staffed from its opening on. -/
theorem staffed_situation (hdedicated : o.table.Knows o.schedule.dedicated)
    (hshared : o.table.Knows (o.schedule.shared.map (·.solver))) :
    o.situation.run.Staffed o.table := by
  have hidle : Run.Staffed o.table o.idle :=
    { table_eq := rfl
      askedFor := fun id w hw => by cases hw
      queue := fun name hname => by cases hname }
  have hadded := hidle.addAll hdedicated .dedicated o.begun
  have hready : Run.Staffed o.table o.ready := ⟨hadded.table_eq, hadded.askedFor, hshared⟩
  exact hready.advance o.begun

/-- A run of a schedule that names known solvers looks up no other one. -/
theorem reachable_staffed (hdedicated : o.table.Knows o.schedule.dedicated)
    (hshared : o.table.Knows (o.schedule.shared.map (·.solver))) (h : Reachable P o s) :
    s.run.Staffed o.table := by
  induction h with
  | refl => exact staffed_situation hdedicated hshared
  | tail hbefore hstep ih =>
    obtain ⟨e, now, hears, rfl⟩ := hstep
    have hfounded := (Reachable.arises hbefore).founded
    refine ih.handle hfounded.numbered e now ?_
    rintro m rfl
    obtain ⟨w, hw, -⟩ := hfounded.of_sends hears
    exact ⟨w, hw⟩

/-- Whatever is asked for on the command line, however the features of an instance are, and on any
number of cores: once the portfolio is chosen, the static schedule is accepted and a schedule is
predicted, the run of that schedule never looks up a solver that is not in the table. -/
theorem planned_staffed {P : Discipline} {o : Opening Float} {s : Situation Float}
    {names backup : Option String} {portfolio : Portfolio}
    (hchosen : Portfolio.choose o.table names backup = .ok portfolio) {p : Predictor}
    (hsolvers : p.portfolio = portfolio.solvers) (hbackup : p.backup = portfolio.backup)
    (hfixed : p.fixed = [] ∨
      ∃ text timeout, StaticSchedule.load text o.table timeout = .ok p.fixed)
    {features : Features} {goal : Goal} {forecast : Forecast}
    (hforecast : p.predict features goal = .ok forecast) {cores : Nat} {timeout : Float}
    (hschedule : o.schedule = forecast.plan.parallelize cores timeout) (h : Reachable P o s) :
    s.run.Staffed o.table := by
  obtain ⟨hportfolio, hknown⟩ := Portfolio.knows_of_choose hchosen
  have hload : o.table.Knows (p.fixed.map (·.solver)) := by
    rcases hfixed with hempty | ⟨text, limit, hload⟩
    · rw [hempty]
      exact nofun
    · exact StaticSchedule.knows_of_load hload
  obtain ⟨hplan, hpredicted⟩ :=
    Predictor.knows_of_predict hforecast (hsolvers ▸ hportfolio) (hbackup ▸ hknown) hload
  obtain ⟨hdedicated, hshared⟩ := Plan.knows_parallelize hplan hpredicted cores timeout
  exact reachable_staffed (hschedule ▸ hdedicated) (hschedule ▸ hshared) h

end Situation

/-- What two solvers are scheduled by: how one of them fared once, and a fixed schedule. -/
def Predictor.duo : Predictor where
  knowledge :=
    ⟨[⟨"queens", [some 1], [("a", ⟨3, some .optimal, some .minimize, some 1, none, some 7⟩)]⟩]⟩
  limits := Limits.ofList [some (0, 2)]
  portfolio := ["a", "b"]
  backup := "b"
  timeout := 10
  neighbors := some 1
  minSize := 1
  fixed := [⟨"b", 2⟩, ⟨"a", 1⟩]

/-- The two solvers take turns on one core as it was forecast. -/
def Forecast.opening (f : Forecast) : Opening Float :=
  { Opening.duo with schedule := f.plan.parallelize 1 10 }

namespace Situation

/-- The two solvers are known, and the second one takes over when the slot of the first one runs
out. -/
theorem forecast_staffed :
    ∃ forecast : Forecast, Predictor.duo.predict [1] .minimize = .ok forecast ∧
      (forecast.opening.situation.takes 0 [.slotExpired]).run.workers.map (·.name) = ["b", "a"] ∧
      (forecast.opening.situation.takes 0 [.slotExpired]).run.Staffed Opening.duo.table := by
  have hnames : (Predictor.duo.predict [1] .minimize).toOption.map (fun forecast =>
      (forecast.opening.situation.takes 0 [.slotExpired]).run.workers.map (·.name)) =
        some ["b", "a"] := by decide +kernel
  cases hforecast : Predictor.duo.predict [1] .minimize with
  | error e =>
    rw [hforecast] at hnames
    cases hnames
  | ok forecast =>
    rw [hforecast] at hnames
    have hchosen : Portfolio.choose Opening.duo.table (some "a, b") (some "b") =
        .ok ⟨["a", "b"], "b"⟩ := rfl
    have hload : StaticSchedule.load "b,2\na,1".toList Opening.duo.table 10 =
        .ok Predictor.duo.fixed := rfl
    have hsteps : Reachable (fun _ _ => True) forecast.opening
        (forecast.opening.situation.takes 0 [.slotExpired]) := steps_takes ⟨trivial, trivial⟩
    exact ⟨forecast, rfl, Option.some.inj hnames,
      planned_staffed (o := forecast.opening) hchosen rfl rfl (.inr ⟨_, _, hload⟩) hforecast rfl
        hsteps⟩

end Situation

end SolverPortfolio

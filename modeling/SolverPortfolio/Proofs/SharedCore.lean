import SolverPortfolio.Proofs.Lifecycle
import Mathlib.Data.List.Perm.Subperm

/-
# The shared core

The workers with a core of their own are added first; all others take turns on the
shared core. Of these at most one for each solver is live, and all that are live
are suspended but the one whose slot is being served. Hence no more workers are busy
than there are cores.

Main definitions: `Situation.Ordered`, `Situation.Supervised`.
Main statements: `Situation.Arises.ordered`, `Situation.Ordered.length_busy_le`,
`Situation.reachable_supervised`.
-/

namespace SolverPortfolio

namespace Run

variable {α : Type} {now : Instant} {r r' : Run α} {e : RunEvent}

/-- A response leaves the slot being served as it is, or ends it with its worker out of the
way. -/
theorem Response.current (h : Response now r e r') :
    r'.current = r.current ∨
      r'.current = none ∧ ∀ slot w, r.current = some slot → r'.worker? slot.worker = some w →
        w.phase = .terminated ∨ w.phase = .suspended := by
  cases h with
  | suspended n hc hs hw hp he =>
    refine Or.inr ⟨rfl, fun slot' w' hslot hw' => Or.inr ?_⟩
    cases hc.symm.trans hslot
    rcases getElem?_modify_cases hw' with ⟨hne, _⟩ | ⟨_, v, _, rfl⟩
    · exact absurd hs.symm hne
    · rfl
  | expired n hc hs hw he =>
    refine Or.inr ⟨rfl, fun slot' w' hslot hw' => Or.inl ?_⟩
    cases hc.symm.trans hslot
    rcases getElem?_modify_cases hw' with ⟨hne, _⟩ | ⟨_, v, _, rfl⟩
    · exact absurd hs.symm hne
    · rfl
  | _ => exact Or.inl rfl

/-- An intervention leaves the slot being served as it is. -/
theorem Intervention.current (h : Intervention now r r') : r'.current = r.current := by
  cases h <;> rfl

/-- A move takes no worker away. -/
theorem Move.length_workers_le (h : Move now r r') : r.workers.length ≤ r'.workers.length := by
  cases h <;> simp

/-- Moves take no worker away. -/
theorem Moves.length_workers_le (h : Moves now r r') : r.workers.length ≤ r'.workers.length := by
  induction h with
  | refl => exact Nat.le_refl _
  | tail _ hm ih => exact Nat.le_trans ih hm.length_workers_le

/-- A newcomer is named after its solver, and stands where it was placed. -/
theorem Newcomer.name_eq {name : String} {placement : Placement} {w : Worker}
    {effects : List Effect} (h : r.Newcomer name placement now w effects) :
    w.name = name ∧ w.placement = placement := by
  cases h <;> exact ⟨rfl, rfl⟩

end Run

/-- A worker that has ended or is suspended uses no core. -/
def Worker.Rests (w : Worker) : Prop := w.phase = .terminated ∨ w.phase = .suspended

/-- A worker that rests goes on resting, whatever event comes. -/
theorem Worker.Turn.rests {goal : Goal} {maxRestarts : Nat} {e : RunEvent} {w w' : Worker}
    (h : Turn goal maxRestarts (some e) w w') (hw : w.Rests) : w'.Rests := by
  cases h with
  | still h => exact hw
  | launched now process injected hp =>
    rcases hw with hw | hw <;> rcases hp with hp | hp <;> cases hw.symm.trans hp
  | recorded x now hl =>
    obtain ⟨best, h⟩ := w.exists_recordSolution now goal x.objective
    rw [h]
    exact hw
  | satisfied x now hl hg => exact Or.inl rfl
  | ended cause he => exact Or.inl rfl
  | suspended hp => exact Or.inr rfl

namespace Situation

variable {α : Type} {P : Discipline} {o : Opening α} {s s' : Situation α}

/-- The order on the shared core. -/
structure Ordered (o : Opening α) (s : Situation α) : Prop where
  length : o.schedule.dedicated.length ≤ s.run.workers.length
  placement : ∀ id w, s.run.worker? id = some w →
    (w.placement = .dedicated ↔ id < o.schedule.dedicated.length)
  /-- Of the workers for one solver only the last may be live. -/
  lone : ∀ i j v w, s.run.worker? i = some v → s.run.worker? j = some w → i < j →
    v.placement = .queued → w.placement = .queued → v.name = w.name → v.isLive = false
  /-- A worker whose slot is not being served rests. -/
  rests : ∀ id w, s.run.worker? id = some w → w.placement = .queued →
    (∀ slot, s.run.current = some slot → slot.worker ≠ id) → w.Rests

/-- A worker of the shared core has the slot being served, or rests. -/
theorem Ordered.served_or_rests (hs : s.Ordered o) {id : WorkerId} {w : Worker}
    (hw : s.run.worker? id = some w) (hq : w.placement = .queued) :
    (∃ slot, s.run.current = some slot ∧ slot.worker = id) ∨ w.Rests := by
  by_cases hserved : ∃ slot, s.run.current = some slot ∧ slot.worker = id
  · exact Or.inl hserved
  · right
    apply hs.rests id w hw hq
    intro slot hcur hid
    exact hserved ⟨slot, hcur, hid⟩

/-! ## Single changes -/

/-- A change takes no worker away. -/
theorem Change.length_workers_le {e : Option RunEvent} (hc : Change P s e s') :
    s.run.workers.length ≤ s'.run.workers.length := by
  cases hc with
  | respond now hh hr => exact Nat.le_of_eq hr.length_workers.symm
  | move now hm => exact hm.length_workers_le
  | intervene now hi => exact Nat.le_of_eq hi.length_workers.symm

/-- Changes take no worker away. -/
theorem Changes.length_workers_le (hcs : Changes P s s') :
    s.run.workers.length ≤ s'.run.workers.length := by
  induction hcs with
  | refl => exact Nat.le_refl _
  | tail _ hc ih =>
    obtain ⟨e, hc⟩ := hc
    exact Nat.le_trans ih hc.length_workers_le

/-- The workers with a core of their own come first. -/
theorem Ordered.placement_change (hs : s.Ordered o) (hn : s.run.Numbered) {e : Option RunEvent}
    (hc : Change P s e s') {id : WorkerId} {w' : Worker} (hw' : s'.run.worker? id = some w') :
    w'.placement = .dedicated ↔ id < o.schedule.dedicated.length := by
  rcases hc.worker_cases hn hw' with ⟨w, hw, hturn⟩ | ⟨-, hnone, name, now, effects, hnew, -⟩
  · rw [hturn.keeps.2.2]
    exact hs.placement id w hw
  · have hlen := List.getElem?_eq_none_iff.mp hnone
    have hlast := hs.length
    rw [hnew.name_eq.2]
    simp only [reduceCtorEq, false_iff]
    exact Nat.not_lt.mpr (Nat.le_trans hlast hlen)

/-- A worker is added for a solver only when all earlier ones have ended. -/
theorem Ordered.lone_change (hs : s.Ordered o) (hn : s.run.Numbered) {e : Option RunEvent}
    (hc : Change P s e s') {i j : WorkerId} {v' w' : Worker} (hv' : s'.run.worker? i = some v')
    (hw' : s'.run.worker? j = some w') (hij : i < j) (hqv : v'.placement = .queued)
    (hqw : w'.placement = .queued) (hname : v'.name = w'.name) : v'.isLive = false := by
  rcases hc.worker_cases hn hv' with ⟨v, hv, hturn⟩ | ⟨-, hnone, _, _, _, hnew, -⟩
  · obtain ⟨-, hvname, hvplace⟩ := hturn.keeps
    refine hturn.dead ?_
    rw [hvplace] at hqv
    rw [hvname] at hname
    rcases hc.worker_cases hn hw' with ⟨w, hw, hturn'⟩ | ⟨-, -, name, now, effects, hnew, hdead⟩
    · obtain ⟨-, hwname, hwplace⟩ := hturn'.keeps
      exact hs.lone i j v w hv hw hij hqv (hwplace ▸ hqw) (hname.trans hwname)
    -- The run looked at the last worker for the solver only; the earlier ones had ended before.
    · obtain ⟨u, hu, hlast⟩ := hn.exists_lastQueued? hv hqv
      rw [hname, hnew.name_eq.1] at hu
      rcases hlast with rfl | hlt
      · exact hdead v hu
      · obtain ⟨hu', hqu, huname⟩ := hn.lastQueued? hu
        exact hs.lone v.id u.id v u (hn.worker?_id hv) hu' hlt hqv hqu
          (by rw [hname, hnew.name_eq.1, huname])
  -- Only one worker is added at a time, so that none comes after the one just added.
  · have hi : s.run.workers.length = i := hnew.id_eq.symm.trans (hc.numbered hn i v' hv')
    rcases hc.worker_cases hn hw' with ⟨w, hw, -⟩ | ⟨-, -, _, _, _, hnew', -⟩
    · obtain ⟨hlt, -⟩ := List.getElem?_eq_some_iff.mp hw
      exact absurd (Nat.lt_trans hij hlt) (Nat.not_lt.mpr (Nat.le_of_eq hi))
    · have hj : s.run.workers.length = j := hnew'.id_eq.symm.trans (hc.numbered hn j w' hw')
      exact absurd (hi.symm.trans hj) (Nat.ne_of_lt hij)

/-- A worker whose slot is not being served after a change rests. -/
theorem Ordered.rests_change (hs : s.Ordered o) (hn : s.run.Numbered) {e : Option RunEvent}
    (hc : Change P s e s') {id : WorkerId} {w' : Worker} (hw' : s'.run.worker? id = some w')
    (hq : w'.placement = .queued)
    (hslot : ∀ slot, s'.run.current = some slot → slot.worker ≠ id) : w'.Rests := by
  have hold {w : Worker} (hw : s.run.worker? id = some w) (hqw : w.placement = .queued)
      (hcur : s'.run.current = s.run.current) : w.Rests :=
    hs.rests id w hw hqw fun slot h => hslot slot (hcur.trans h)
  cases hc with
  | respond now hh hr =>
    obtain ⟨hlt, -⟩ := List.getElem?_eq_some_iff.mp hw'
    rw [run_after, hr.length_workers] at hlt
    obtain ⟨v, hv, hturn⟩ := hr.turn hn (List.getElem?_eq_getElem hlt)
    cases Option.some.inj (hv.symm.trans hw')
    rw [hturn.keeps.2.2] at hq
    rcases hr.current with hcur | ⟨_, hleft⟩
    · exact hturn.rests (hold (List.getElem?_eq_getElem hlt) hq hcur)
    · rcases hs.served_or_rests (List.getElem?_eq_getElem hlt) hq with ⟨slot, hcur, rfl⟩ | hrests
      · exact hleft slot w' hcur hw'
      · exact hturn.rests hrests
  | intervene now hi =>
    have hcur := hi.current
    cases hi with
    | finish cause hv =>
      rcases getElem?_modify_cases hw' with ⟨_, hw⟩ | ⟨_, w, _, rfl⟩
      · exact hold hw hq hcur
      · exact Or.inl rfl
    | restart n hv hstag =>
      rcases getElem?_modify_cases hw' with ⟨_, hw⟩ | ⟨rfl, w, hw, rfl⟩
      · exact hold hw hq hcur
      · cases Option.some.inj (hv.symm.trans hw)
        obtain ⟨hsolving, -⟩ := Worker.restarts_of_stagnation hstag
        rcases hold hw hq hcur with h | h <;> cases hsolving.symm.trans h
  | move now hm =>
    cases hm with
    | report n | plan queue carry | tidy => exact hold hw' hq rfl
    | leave h =>
      rcases hs.served_or_rests hw' hq with ⟨slot, hcur, rfl⟩ | hrests
      · exact h slot w' hcur hw'
      · exact hrests
    | keep deadline hv hl hsus hcur =>
      exact hs.rests id w' hw' hq fun slot h => by cases hcur.symm.trans h
    | resume deadline n hv hsus hcur =>
      rcases getElem?_modify_cases hw' with ⟨_, hw⟩ | ⟨hid, -⟩
      · exact hs.rests id w' hw hq fun slot h => by cases hcur.symm.trans h
      · exact absurd hid (hslot _ rfl)
    | @recruit name w effects deadline hnew hl hcur =>
      rcases getElem?_concat_cases hw' with hw | ⟨hid, rfl⟩
      · exact hs.rests id w' hw hq fun slot h => by cases hcur.symm.trans h
      · cases hlive : w'.isLive with
        | true =>
          refine absurd (hnew.id_eq.trans hid.symm) (hslot ⟨w'.id, deadline⟩ ?_)
          exact if_pos hlive
        | false => exact Or.inl (by simpa [Worker.isLive] using hlive)

/-- The order is kept in all that arises. -/
theorem Arises.ordered (h : Arises P o s) : s.Ordered o := by
  apply h.invariant (I := Ordered o)
  · intro r hr
    have hplace {id : WorkerId} {w : Worker} (hw : r.worker? id = some w) :
        w.placement = .dedicated := by
      obtain ⟨_, r₀, name, now, effects, hn⟩ := hr.worker id w hw
      exact hn.name_eq.2
    constructor
    case length => exact Nat.le_of_eq hr.length.symm
    case placement =>
      intro id w hw
      obtain ⟨hlt, -⟩ := List.getElem?_eq_some_iff.mp hw
      exact iff_of_true (hplace hw) (hr.length ▸ hlt)
    -- Nobody is on the shared core yet.
    case lone =>
      intro i j v w hv _ _ hq
      cases (hplace hv).symm.trans hq
    case rests =>
      intro id w hw hq
      cases (hplace hw).symm.trans hq
  · intro s e s' ha hs hc
    have hn := ha.founded.numbered
    constructor
    case length => exact Nat.le_trans hs.length hc.length_workers_le
    case placement =>
      intro id w' hw'
      exact hs.placement_change hn hc hw'
    case lone =>
      intro i j v' w' hv' hw' hij hqv hqw
      exact hs.lone_change hn hc hv' hw' hij hqv hqw
    case rests =>
      intro id w' hw' hq
      exact hs.rests_change hn hc hw' hq

/-! ## Cores -/

/-- No more workers are busy than there are cores. -/
theorem Ordered.length_busy_le (hs : s.Ordered o) (hn : s.run.Numbered) :
    (s.run.workers.filter fun w =>
        w.phase = .converting ∨ w.phase = .solving ∨ w.phase = .restarting).length
      ≤ o.schedule.dedicated.length + 1 := by
  have hnodup : ((s.run.workers.filter fun w =>
      w.phase = .converting ∨ w.phase = .solving ∨ w.phase = .restarting).map (·.id)).Nodup := by
    rw [List.Nodup, List.pairwise_map]
    exact (hn.pairwise.filter _).imp fun h => Nat.ne_of_lt h
  -- Whoever is busy has a core of its own, which its number tells, or has the slot being served.
  have hids : (s.run.workers.filter fun w =>
      w.phase = .converting ∨ w.phase = .solving ∨ w.phase = .restarting).map (·.id)
        ⊆ List.range o.schedule.dedicated.length ++ s.run.current.toList.map (·.worker) := by
    intro id hid
    obtain ⟨w, hmem, rfl⟩ := List.mem_map.mp hid
    rw [List.mem_filter, decide_eq_true_eq] at hmem
    obtain ⟨hmem, hbusy⟩ := hmem
    obtain ⟨i, hi⟩ := List.mem_iff_getElem?.mp hmem
    have hw := hn.worker?_id hi
    rw [List.mem_append]
    cases hp : w.placement with
    | dedicated => exact Or.inl (List.mem_range.mpr ((hs.placement _ w hw).mp hp))
    | queued =>
      right
      rcases hs.served_or_rests hw hp with ⟨slot, hcur, hid⟩ | hrests
      · rw [hcur, ← hid]
        exact List.mem_singleton_self _
      · rcases hrests with h | h <;> simp [h] at hbusy
  have hle := (hnodup.subperm hids).length_le
  have hcur : s.run.current.toList.length ≤ 1 := by cases s.run.current <;> simp
  simp only [List.length_map, List.length_append, List.length_range] at hle
  omega

/-- What is known of the workers at any time. -/
structure Supervised (o : Opening α) (s : Situation α) : Prop where
  numbered : ∀ id w, s.run.worker? id = some w → w.id = id
  terminated : ∀ w ∈ s.run.workers, w.phase = .terminated ↔ w.termination.isSome
  process : ∀ w ∈ s.run.workers, w.process.isSome ↔ w.phase = .solving ∨ w.phase = .suspended
  /-- Every process held is recorded as running. -/
  recorded : ∀ w ∈ s.run.workers, ∀ process, w.process = some process →
    ((w.id, w.generation), process) ∈ s.run.running
  restarts : ∀ w ∈ s.run.workers, w.restarts = w.generation ∧
    w.restarts ≤ o.settings.maxRestarts
  /-- At most one worker of the shared core is live for each solver. -/
  lone : ∀ v ∈ s.run.workers, ∀ w ∈ s.run.workers, v.placement = .queued →
    w.placement = .queued → v.name = w.name → v.isLive → w.isLive → v = w
  /-- A live worker of the shared core is suspended, or its slot is being served. -/
  served : ∀ w ∈ s.run.workers, w.placement = .queued → w.isLive →
    w.phase = .suspended ∨ ∃ slot, s.run.current = some slot ∧ slot.worker = w.id
  /-- No more workers are busy than there are cores. -/
  cores : (s.run.workers.filter fun w =>
      w.phase = .converting ∨ w.phase = .solving ∨ w.phase = .restarting).length
    ≤ o.schedule.dedicated.length + 1

/-- All that arises is supervised. -/
theorem Arises.supervised (h : Arises P o s) : s.Supervised o := by
  have hn := h.founded.numbered
  have hsound := h.sound
  have hordered := h.ordered
  have hfind {w : Worker} (hw : w ∈ s.run.workers) : s.run.worker? w.id = some w := by
    obtain ⟨i, hi⟩ := List.mem_iff_getElem?.mp hw
    exact hn.worker?_id hi
  have hworker {w : Worker} (hw : w ∈ s.run.workers) : w.Sound o.settings.maxRestarts :=
    hsound.worker _ w (hfind hw)
  constructor
  case numbered => exact hn
  case terminated =>
    intro w hw
    exact (hworker hw).termination
  case process =>
    intro w hw
    exact (hworker hw).process
  case recorded =>
    intro w hw process hp
    exact (hsound.process _ w process (hfind hw) hp).1
  case restarts =>
    intro w hw
    exact ⟨(hworker hw).restarts_eq, (hworker hw).restarts_le⟩
  case lone =>
    intro v hv w hw hqv hqw hname hlv hlw
    rcases Nat.lt_trichotomy v.id w.id with hlt | heq | hlt
    · have hdead := hordered.lone _ _ v w (hfind hv) (hfind hw) hlt hqv hqw hname
      cases hlv.symm.trans hdead
    · have hv' := hfind hv
      rw [heq] at hv'
      exact Option.some.inj (hv'.symm.trans (hfind hw))
    · have hdead := hordered.lone _ _ w v (hfind hw) (hfind hv) hlt hqw hqv hname.symm
      cases hlw.symm.trans hdead
  case served =>
    intro w hw hq hl
    rcases hordered.served_or_rests (hfind hw) hq with hserved | hrests
    · exact Or.inr hserved
    · exact Or.inl (hrests.resolve_left (Worker.isLive_iff.mp hl))
  case cores => exact hordered.length_busy_le hn

/-- In every reachable situation the workers are supervised. Workers that have ended stay as they
are, and every phase follows the one before, beginning with that of a worker not yet converted. A
tick that resumes a worker may restart it at once. -/
theorem reachable_supervised [Timed α] (h : Reachable P o s) :
    s.Supervised o ∧
    (∀ s' id w, Steps P s s' → s.run.worker? id = some w → w.phase = .terminated →
      s'.run.worker? id = some w) ∧
    (∀ id w, o.situation.run.worker? id = some w → Phase.Next .ready w.phase) ∧
    ∀ s' e, Step P s e s' →
      (∀ id w, s.run.worker? id = some w → ∃ w', s'.run.worker? id = some w' ∧
        (w'.phase = w.phase ∨ w.phase.Next w'.phase ∨
          (∃ usage, e = .tick usage) ∧ w.phase = .suspended ∧ w'.phase = .restarting)) ∧
      ∀ id w', s.run.worker? id = none → s'.run.worker? id = some w' →
        Phase.Next .ready w'.phase := by
  have ha := h.arises
  refine ⟨ha.supervised, fun s' id w hsteps hw ht => ?_, fun id w hw => phase_situation o hw,
    fun s' e hstep => ⟨fun id w hw => hstep.phase ha hw, fun id w' hnone hw' => ?_⟩⟩
  · exact Changes.eq_of_terminated ha (Steps.changes ha hsteps) hw ht
  · exact hstep.newcomer ha hnone hw'

end Situation

/-! ## A run of two solvers -/

/-- A solver that takes bounds as constraints. -/
def Solver.plain (name : String) : Solver where
  name
  convert := []
  run := [name]
  output := none
  minimizeConstraint := defaultMinimizeConstraint
  maximizeConstraint := defaultMaximizeConstraint
  allSolutionsFlag := "-a"
  freeSearchFlag := "-f"

/-- Two solvers that take turns on the shared core. -/
def Opening.duo : Opening Rat where
  settings :=
    { timeout := Duration.ofWholeSeconds 10
      waitTime := Duration.ofWholeSeconds 2
      restartTime := Duration.ofWholeSeconds 5
      maxRestarts := 1
      memoryPercent := 100
      monitorInterval := Duration.ofWholeSeconds 1
      allSolutions := false
      freeSearch := false
      switchSearch := false }
  goal := .minimize
  tracked := "_objective"
  table := ⟨[.plain "a", .plain "b"]⟩
  memory := ⟨0, 100⟩
  schedule := ⟨[], [⟨"a", 1⟩, ⟨"b", 5⟩]⟩
  setUp := 0
  begun := 0

namespace Situation

/-- The first solver prints a solution and announces a better one. Before it prints that, its slot
runs out, and the second solver is launched with the better value as its bound. -/
def duoEvents : List RunEvent :=
  [.message (.launched 0 0 10 none),
    .message (.output 0 0 (.bound 9)),
    .message (.output 0 0 (.solution ⟨"x = 9;\n", some 9⟩)),
    .message (.output 0 0 (.bound 5)),
    .slotExpired,
    .message (.launched 1 0 11 (some 5))]

/-- The first solver may print all this if the discipline allows it. -/
theorem hearsAll_duo {P : Discipline} (h₁ : P none [.bound 9])
    (h₂ : P none [.bound 9, .solution ⟨"x = 9;\n", some 9⟩])
    (h₃ : P none [.bound 9, .solution ⟨"x = 9;\n", some 9⟩, .bound 5]) :
    HearsAll P 0 duoEvents Opening.duo.situation := by
  refine ⟨?_, Sends.output 0 0 h₁, Sends.output 0 0 h₂, Sends.output 0 0 h₃, trivial, ?_, trivial⟩
  · exact Sends.launched_of_any 0 0 10 none (.error "") rfl
  · exact Sends.launched_of_any 1 0 11 (some 5) (.ok "solve minimize x;".toList) rfl

/-- The second solver proves that there is nothing better than its bound. -/
def duoProof : RunEvent := .message (.output 1 0 (.completed .unsatisfiable))

/-- The run of the two solvers goes on to this proof if the discipline allows it. -/
theorem step_duo {P : Discipline} (h : P (some 5) [.completed .unsatisfiable]) :
    Step P (Opening.duo.situation.takes 0 duoEvents) duoProof
      (Opening.duo.situation.takes 0 (duoEvents ++ [duoProof])) :=
  ⟨0, Sends.output 1 0 h, rfl⟩

/-- The run of the two solvers is supervised when one is suspended and the other one solves. -/
theorem duo_supervised :
    ∃ s, Reachable (fun _ _ => True) .duo s ∧
      s.run.workers.map (·.phase) = [.suspended, .solving] ∧ s.Supervised .duo := by
  have hsteps : Reachable (fun _ _ => True) .duo (Opening.duo.situation.takes 0 duoEvents) :=
    steps_takes (hearsAll_duo trivial trivial trivial)
  exact ⟨_, hsteps, rfl, (reachable_supervised hsteps).1⟩

end Situation

end SolverPortfolio

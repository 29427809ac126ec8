import Mathlib.Data.List.Forall2
import SolverPortfolio.Proofs.Backdrop

/-
# Conversions at the same time

Several calls for conversions are on their way at the same time. To look into the cache, to
begin the command, to see how it ended and to put the conversion into the cache are steps of
their own, and between the steps of one call other calls may take theirs, and anything may
happen on the host. A workshop is the bench that the calls share, together with how far each
has come; the lists of events are the ways in which the steps may be interleaved.

A conversion that is made by itself is such a call, and so are the launches of a rehearsal:
whatever its run asks for and its processes do, every stage it comes to mirrors a workshop after
some events.

Main definitions: `CallStage`, `Workbench.advance`, `Workshop`, `Workshop.Event`,
`Workshop.step`, `Workshop.run`, `Stage.Mirrors`, `Stage.Comes`.
Main statements: `Stage.exists_comes_convertModel`, `Stage.exists_mirrors_conduct`.
-/

namespace SolverPortfolio

/-- How far a call for a conversion has come. -/
inductive CallStage where
  | asked
  /-- There was nothing in the cache. -/
  | missed
  | converting (process : ProcessId) (conversion : Conversion)
  /-- The command has succeeded. -/
  | converted (conversion : Conversion)
  | answered (answer : Except ConversionError Conversion)

/-- A call for a conversion on its way. -/
structure OpenCall where
  solver : Solver
  stage : CallStage

/-- What calls for conversions share. -/
structure Workbench where
  model : String
  data : Option String
  host : Host
  cache : ConversionCache
  /-- The solvers whose commands were begun, the latest first. -/
  begun : List String

namespace Workbench

variable (bench : Workbench) (call : OpenCall)

/-- The next step of a call. -/
def advance : Workbench × CallStage :=
  match call.stage with
  | .asked =>
    match bench.cache.find? call.solver.name with
    | some c => (bench, .answered (.ok c))
    | none => (bench, .missed)
  | .missed =>
    match Stage.beginConversion bench.host call.solver bench.model bench.data with
    | .error e => (bench, .answered (.error e))
    | .ok (host, process, c, _) =>
      ({ bench with host, begun := call.solver.name :: bench.begun }, .converting process c)
  | .converting process c =>
    match bench.host.ended? process with
    | none => (bench, call.stage)
    | some status =>
      match c.ofStatus status with
      | .error e => (bench, .answered (.error e))
      | .ok c => (bench, .converted c)
  | .converted c =>
    ({ bench with cache := bench.cache.insert call.solver.name c }, .answered (.ok c))
  | .answered _ => (bench, call.stage)

/-- What it is for a call to be cancelled: a command that is running is killed, but none of the
processes that it has begun. -/
def cancel : Workbench × CallStage :=
  match call.stage with
  | .converting process _ =>
    ({ bench with host := bench.host.killProcess process },
      .answered (.error (.cancelled call.solver.name)))
  | _ => (bench, call.stage)

end Workbench

/-- Calls for conversions at the same time. -/
structure Workshop where
  bench : Workbench
  /-- The calls, in the order in which they were made. -/
  calls : List OpenCall

namespace Workshop

/-- What may happen next. -/
inductive Event where
  | ask (solver : Solver)
  /-- One of the calls takes its next step. -/
  | advance (place : Nat)
  | cancel (place : Nat)
  /-- Something changes on the host. -/
  | happen (change : Host → Host)

/-- A workshop in which nobody has called. -/
def opened (model : String) (data : Option String) (host : Host) : Workshop :=
  ⟨⟨model, data, host, .empty, []⟩, []⟩

variable (w : Workshop)

/-- Lets something become of the call at a place. -/
def atCall (place : Nat) (become : Workbench → OpenCall → Workbench × CallStage) : Workshop :=
  match w.calls[place]? with
  | none => w
  | some call =>
    let (bench, stage) := become w.bench call
    ⟨bench, w.calls.set place { call with stage }⟩

/-- The workshop after an event. -/
def step : Event → Workshop
  | .ask solver => { w with calls := w.calls ++ [⟨solver, .asked⟩] }
  | .advance place => w.atCall place Workbench.advance
  | .cancel place => w.atCall place Workbench.cancel
  | .happen change => { w with bench := { w.bench with host := change w.bench.host } }

/-- The workshop after some events. -/
def run (events : List Event) : Workshop := events.foldl step w

@[simp] theorem run_nil : w.run [] = w := rfl

@[simp] theorem run_cons (e : Event) (events : List Event) :
    w.run (e :: events) = (w.step e).run events := rfl

/-- Events come one part after the other. -/
theorem run_append (before after : List Event) :
    w.run (before ++ after) = (w.run before).run after :=
  List.foldl_append

/-- Something becomes of one call among others. -/
theorem atCall_append (bench : Workbench) (before after : List OpenCall) (call : OpenCall)
    (become : Workbench → OpenCall → Workbench × CallStage) :
    atCall ⟨bench, before ++ call :: after⟩ before.length become =
      ⟨(become bench call).1,
        before ++ { call with stage := (become bench call).2 } :: after⟩ := by
  have hcall : (before ++ call :: after)[before.length]? = some call := by simp
  rw [atCall, hcall]
  dsimp only
  rw [List.set_append_right _ _ (Nat.le_refl _), Nat.sub_self, List.set_cons_zero]

variable {w}

/-- Something becomes of a call that there is, or nothing happens. -/
theorem atCall_cases (place : Nat) (become : Workbench → OpenCall → Workbench × CallStage) :
    (w.calls[place]? = none ∧ w.atCall place become = w) ∨
      ∃ before call after, w = ⟨w.bench, before ++ call :: after⟩ ∧ place = before.length := by
  cases hcall : w.calls[place]? with
  | none =>
    refine Or.inl ⟨rfl, ?_⟩
    rw [atCall, hcall]
  | some call =>
    obtain ⟨hlt, hget⟩ := List.getElem?_eq_some_iff.mp hcall
    refine Or.inr ⟨w.calls.take place, call, w.calls.drop (place + 1), ?_, ?_⟩
    · rw [← hget, ← List.drop_eq_getElem_cons hlt, List.take_append_drop]
    · rw [List.length_take, Nat.min_eq_left (Nat.le_of_lt hlt)]

/-- An answer is final. -/
theorem mem_step_of_answered {call : OpenCall} {answer : Except ConversionError Conversion}
    (hmem : call ∈ w.calls) (hanswer : call.stage = .answered answer) (e : Event) :
    call ∈ (w.step e).calls := by
  have hkeeps (become : Workbench → OpenCall → Workbench × CallStage)
      (hbecome : (become w.bench call).2 = call.stage) (place : Nat) :
      call ∈ (w.atCall place become).calls := by
    rcases atCall_cases place become with ⟨-, hsame⟩ | ⟨before, other, after, hw, hplace⟩
    · rw [hsame]
      exact hmem
    · rw [hw] at hmem
      rw [hw, hplace, atCall_append]
      simp only [List.mem_append, List.mem_cons] at hmem ⊢
      rcases hmem with hmem | rfl | hmem
      · exact Or.inl hmem
      · rw [hbecome]
        exact Or.inr (Or.inl rfl)
      · exact Or.inr (Or.inr hmem)
  obtain ⟨own, stage⟩ := call
  obtain rfl : stage = .answered answer := hanswer
  cases e with
  | ask solver => exact List.mem_append_left _ hmem
  | advance place => exact hkeeps Workbench.advance rfl place
  | cancel place => exact hkeeps Workbench.cancel rfl place
  | happen change => exact hmem

end Workshop

/-! ## Rehearsals -/

/-- A call has come as far as the launch that made it. -/
def LaunchTask.Mirrors (task : LaunchTask) (call : OpenCall) : Prop :=
  call.solver = task.request.solver ∧
    match task.stage with
    | .requested => call.stage = .asked
    | .converting process c _ => call.stage = .converting process c
    | _ => ∃ answer, call.stage = .answered answer

namespace Stage

/-- What the launches of a stage share is on the bench. -/
structure Shares (s : Stage) (bench : Workbench) : Prop where
  model : bench.model = s.model
  data : bench.data = s.data
  host : bench.host = s.host
  cache : bench.cache = s.cache

/-- The launches of a stage are the calls in a workshop. -/
structure Mirrors (s : Stage) (w : Workshop) : Prop where
  shares : s.Shares w.bench
  calls : List.Forall₂ LaunchTask.Mirrors s.tasks w.calls

/-- Whatever workshop a stage mirrors, the other one mirrors it after some events. -/
def Follows (s s' : Stage) : Prop :=
  ∀ w, s.Mirrors w → ∃ events, s'.Mirrors (w.run events)

variable {s s' s'' : Stage}

/-- What happens in two parts happens. -/
theorem Follows.trans (h : s.Follows s') (h' : s'.Follows s'') : s.Follows s'' := by
  intro w hw
  obtain ⟨before, hbefore⟩ := h w hw
  obtain ⟨after, hafter⟩ := h' _ hbefore
  rw [← Workshop.run_append] at hafter
  exact ⟨before ++ after, hafter⟩

/-- The launches share the model and the conversions; anything else that becomes of a stage has
happened on the host, or does not matter for them. -/
theorem Shares.of_eq {bench : Workbench} (h : s.Shares bench) (hmodel : s'.model = s.model)
    (hdata : s'.data = s.data) (hcache : s'.cache = s.cache) :
    s'.Shares { bench with host := s'.host } :=
  ⟨h.model.trans hmodel.symm, h.data.trans hdata.symm, rfl, h.cache.trans hcache.symm⟩

theorem Shares.of_backdrop {bench : Workbench} (h : s.Shares bench)
    (hback : s'.backdrop = s.backdrop) : s'.Shares { bench with host := s'.host } := by
  simp only [backdrop, Prod.mk.injEq] at hback
  obtain ⟨-, hmodel, hdata, hcache, -⟩ := hback
  exact h.of_eq hmodel hdata hcache

theorem follows_of_eq (hmodel : s'.model = s.model) (hdata : s'.data = s.data)
    (hcache : s'.cache = s.cache) (htasks : s'.tasks = s.tasks) : s.Follows s' := by
  intro w hw
  exact ⟨[.happen fun _ => s'.host], hw.shares.of_eq hmodel hdata hcache, htasks ▸ hw.calls⟩

/-! ### What the run asks for -/

/-- A launch that is asked for is a call that is made. -/
theorem follows_carryOut (e : Effect) : s.Follows (s.carryOut e) := by
  cases e with
  | launch request =>
    intro w hw
    refine ⟨[.ask request.solver], ?_, List.rel_append hw.calls (.cons ⟨rfl, rfl⟩ .nil)⟩
    exact ⟨hw.shares.model, hw.shares.data, hw.shares.host, hw.shares.cache⟩
  | pause process => exact follows_of_eq rfl rfl rfl rfl
  | wake process => exact follows_of_eq rfl rfl rfl rfl
  | release process => exact follows_of_eq rfl rfl rfl rfl
  | kill process => exact follows_of_eq rfl rfl rfl rfl
  | print line => exact follows_of_eq rfl rfl rfl rfl
  | notice n => exact follows_of_eq rfl rfl rfl rfl

theorem follows_settle (s : Stage) : s.Follows s.settle := by
  have hforget : s.Follows { s with run := { s.run with effects := [] } } :=
    follows_of_eq rfl rfl rfl rfl
  refine hforget.trans ?_
  unfold settle
  generalize s.run.effects.reverse = effects
  generalize { s with run := { s.run with effects := [] } } = s'
  induction effects generalizing s' with
  | nil => exact follows_of_eq rfl rfl rfl rfl
  | cons e effects ih => exact (follows_carryOut e).trans (ih _)

/-- An event that the run takes up makes for calls only by what the run asks for then. -/
theorem follows_handle (s : Stage) (e : RunEvent) : s.Follows (s.handle e) := by
  have htaken : s.Follows { s with run := s.run.handle e s.now } := follows_of_eq rfl rfl rfl rfl
  exact htaken.trans (follows_settle _)

/-! ### Calls by themselves -/

/-- A bench and a call come to another bench and another call, whatever other calls there are, by
steps of the call, by its being cancelled and by what happens on the host. -/
def Comes (bench : Workbench) (call : OpenCall) (bench' : Workbench) (call' : OpenCall) : Prop :=
  ∀ before after, ∃ events,
    Workshop.run ⟨bench, before ++ call :: after⟩ events = ⟨bench', before ++ call' :: after⟩

variable {bench bench' bench'' : Workbench} {call call' call'' : OpenCall}

theorem Comes.trans (h : Comes bench call bench' call') (h' : Comes bench' call' bench'' call'') :
    Comes bench call bench'' call'' := by
  intro before after
  obtain ⟨first, hfirst⟩ := h before after
  obtain ⟨second, hsecond⟩ := h' before after
  refine ⟨first ++ second, ?_⟩
  rw [Workshop.run_append, hfirst, hsecond]

theorem comes_happen (host : Host) : Comes bench call { bench with host } call :=
  fun _ _ => ⟨[.happen fun _ => host], rfl⟩

theorem comes_advance {stage : CallStage} (h : bench.advance call = (bench', stage)) :
    Comes bench call bench' { call with stage } := by
  intro before after
  refine ⟨[.advance before.length], ?_⟩
  rw [Workshop.run_cons, Workshop.run_nil, Workshop.step, Workshop.atCall_append, h]

theorem comes_cancel {stage : CallStage} (h : bench.cancel call = (bench', stage)) :
    Comes bench call bench' { call with stage } := by
  intro before after
  refine ⟨[.cancel before.length], ?_⟩
  rw [Workshop.run_cons, Workshop.run_nil, Workshop.step, Workshop.atCall_append, h]

section

variable {solver : Solver} (hfind : bench.cache.find? solver.name = none)
include hfind

/-- A call whose command cannot be begun. -/
theorem comes_of_beginConversion_error {e : ConversionError}
    (hbegin : beginConversion bench.host solver bench.model bench.data = .error e) (host : Host) :
    Comes bench ⟨solver, .asked⟩ { bench with host } ⟨solver, .answered (.error e)⟩ := by
  have hlook : bench.advance ⟨solver, .asked⟩ = (bench, .missed) := by
    simp only [Workbench.advance, hfind]
  have hgive : bench.advance ⟨solver, .missed⟩ = (bench, .answered (.error e)) := by
    simp only [Workbench.advance, hbegin]
  exact ((comes_advance hlook).trans (comes_advance hgive)).trans (comes_happen host)

/-- A call whose command has begun, and whatever happens on the host then. -/
theorem comes_of_beginConversion_ok {begun : Host} {process : ProcessId} {c : Conversion}
    {errors : Tap}
    (hbegin : beginConversion bench.host solver bench.model bench.data =
      .ok (begun, process, c, errors)) (host : Host) :
    Comes bench ⟨solver, .asked⟩ { bench with host, begun := solver.name :: bench.begun }
      ⟨solver, .converting process c⟩ := by
  have hlook : bench.advance ⟨solver, .asked⟩ = (bench, .missed) := by
    simp only [Workbench.advance, hfind]
  have hgo : bench.advance ⟨solver, .missed⟩ =
      ({ bench with host := begun, begun := solver.name :: bench.begun },
        .converting process c) := by
    simp only [Workbench.advance, hbegin]
  exact ((comes_advance hlook).trans (comes_advance hgo)).trans (comes_happen host)

end

/-- A call whose command has ended keeps the conversion if there is one. -/
theorem comes_of_ended? {solver : Solver} {process : ProcessId} {c : Conversion}
    {status : ExitStatus} (hended : bench.host.ended? process = some status) :
    Comes bench ⟨solver, .converting process c⟩
      { bench with cache := bench.cache.keep solver.name (some (c.ofStatus status)) }
      ⟨solver, .answered (c.ofStatus status)⟩ := by
  cases hstatus : c.ofStatus status with
  | error e =>
    refine comes_advance ?_
    simp only [Workbench.advance, hended, hstatus, ConversionCache.keep]
  | ok c' =>
    have hsee : bench.advance ⟨solver, .converting process c⟩ = (bench, .converted c') := by
      simp only [Workbench.advance, hended, hstatus]
    exact (comes_advance hsee).trans (comes_advance rfl)

/-- What a conversion by itself comes to, a call in a workshop can come to, whatever other calls
there are. -/
theorem exists_comes_convertModel {solver : Solver} {cancelled : Bool} {host : Host}
    {cache : ConversionCache} {answer : Except ConversionError Conversion}
    (h : convertModel bench.host bench.cache solver bench.model bench.data cancelled =
      (host, cache, some answer)) :
    ∃ begun, Comes bench ⟨solver, .asked⟩ { bench with host, cache, begun }
      ⟨solver, .answered answer⟩ := by
  unfold convertModel at h
  cases hfind : bench.cache.find? solver.name with
  | some c =>
    rw [ConversionCache.convert_of_eq_some _ _ _ _ hfind] at h
    cases h
    refine ⟨bench.begun, comes_advance ?_⟩
    simp only [Workbench.advance, hfind]
  | none =>
    rw [ConversionCache.convert_of_eq_none _ _ _ _ hfind] at h
    cases hbegin : beginConversion bench.host solver bench.model bench.data with
    | error e =>
      rw [Host.attempt_of_error hbegin] at h
      cases h
      exact ⟨bench.begun, comes_of_beginConversion_error hfind hbegin _⟩
    | ok begun =>
      obtain ⟨begun, process, c, errors⟩ := begun
      -- The command has begun: the call is cancelled at once, or it waits for the end of the command.
      rw [Host.attempt_of_ok hbegin] at h
      refine ⟨solver.name :: bench.begun, ?_⟩
      cases cancelled with
      | true =>
        cases h
        exact (comes_of_beginConversion_ok hfind hbegin begun).trans (comes_cancel rfl)
      | false =>
        simp only [Bool.false_eq_true, if_false] at h
        generalize begun.await process = awaited at h
        cases hended : awaited.ended? process with
        | none =>
          -- A command that runs for ever gives no answer.
          rw [hended] at h
          cases h
        | some status =>
          rw [hended] at h
          cases h
          exact (comes_of_beginConversion_ok hfind hbegin host).trans (comes_of_ended? hended)

/-! ### The launches -/

/-- A launch among others has its call at the same place. -/
theorem exists_mirrors_of_append {before rest : List LaunchTask} {task : LaunchTask}
    {calls : List OpenCall}
    (h : List.Forall₂ LaunchTask.Mirrors (before ++ task :: rest) calls) :
    ∃ callsBefore call callsRest, calls = callsBefore ++ call :: callsRest ∧
      List.Forall₂ LaunchTask.Mirrors before callsBefore ∧ task.Mirrors call ∧
      List.Forall₂ LaunchTask.Mirrors rest callsRest := by
  induction before generalizing calls with
  | nil =>
    obtain ⟨call, callsRest, hcall, hrest, rfl⟩ := List.forall₂_cons_left_iff.mp h
    exact ⟨[], call, callsRest, rfl, .nil, hcall, hrest⟩
  | cons first before ih =>
    obtain ⟨call, calls, hcall, hothers, rfl⟩ := List.forall₂_cons_left_iff.mp h
    obtain ⟨callsBefore, own, callsRest, rfl, hbefore, hown, hrest⟩ := ih hothers
    exact ⟨call :: callsBefore, own, callsRest, rfl, .cons hcall hbefore, hown, hrest⟩

/-- A launch that has begun its solver, or could not, has its conversion. -/
theorem mirrors_launchSolver (s : Stage) (request : LaunchRequest) (c : Conversion)
    (answer : Except ConversionError Conversion) :
    (s.launchSolver request c).2.Mirrors ⟨request.solver, .answered answer⟩ := by
  unfold launchSolver
  dsimp only
  split
  · exact ⟨rfl, answer, rfl⟩
  · split
    · exact ⟨rfl, answer, rfl⟩
    · exact ⟨rfl, answer, rfl⟩

/-- Once a call is answered, what its launch does with the conversion only happens on the host. -/
theorem exists_comes_of_launchSolver {request : LaunchRequest} {task' : LaunchTask}
    {c : Conversion} (hs : s.Shares bench) (h : s.launchSolver request c = (s', task'))
    (answer : Except ConversionError Conversion) :
    ∃ bench', Comes bench ⟨request.solver, .answered answer⟩ bench'
        ⟨request.solver, .answered answer⟩ ∧
      s'.Shares bench' ∧ task'.Mirrors ⟨request.solver, .answered answer⟩ := by
  have hback := s.backdrop_launchSolver request c
  have hmirrors := s.mirrors_launchSolver request c answer
  rw [h] at hback hmirrors
  exact ⟨_, comes_happen _, hs.of_backdrop hback, hmirrors⟩

/-- A launch that fails changes nothing that is shared. -/
theorem shares_of_failConversion {request : LaunchRequest} {task' : LaunchTask}
    {e : ConversionError} (hs : s.Shares bench) (h : s.failConversion request e = (s', task')) :
    s'.Shares bench ∧ task'.Mirrors ⟨request.solver, .answered (.error e)⟩ := by
  cases h
  exact ⟨⟨hs.model, hs.data, hs.host, hs.cache⟩, rfl, .error e, rfl⟩

/-- What is reported changes nothing that is shared. -/
theorem Shares.noteLines (hs : s.Shares bench) (label : String) (lines : List ReadLine) :
    (s.noteLines label lines).Shares bench := by
  refine List.foldlRecOn (motive := fun s' : Stage => s'.Shares bench) _ _ hs fun s' hs line _ => ?_
  cases line with
  | ok line => exact ⟨hs.model, hs.data, hs.host, hs.cache⟩
  | error fault => exact hs

/-- A launch goes on by the steps of its call. To see that there is nothing in the cache and to begin
the command is one thing for a launch, and so is to see how the command ended and to keep the
conversion. -/
theorem exists_comes_advanceLaunch? {task task' : LaunchTask} (hs : s.Shares bench)
    (hcall : task.Mirrors call) (h : s.advanceLaunch? task = some (s', task')) :
    ∃ bench' call', Comes bench call bench' call' ∧ s'.Shares bench' ∧ task'.Mirrors call' := by
  obtain ⟨request, stage⟩ := task
  obtain ⟨solver, callStage⟩ := call
  obtain ⟨rfl, hstage⟩ := hcall
  cases stage with
  | requested =>
    obtain rfl : callStage = .asked := hstage
    simp only [advanceLaunch?, Option.some.injEq] at h
    cases hfind : s.cache.find? request.solver.name with
    | some c =>
      rw [hfind] at h
      have hlook : bench.advance ⟨request.solver, .asked⟩ = (bench, .answered (.ok c)) := by
        simp only [Workbench.advance, hs.cache, hfind]
      obtain ⟨bench', hcomes, hlaunch⟩ := exists_comes_of_launchSolver hs h (.ok c)
      exact ⟨bench', _, (comes_advance hlook).trans hcomes, hlaunch⟩
    | none =>
      rw [hfind] at h
      rw [← hs.cache] at hfind
      cases hbegin : beginConversion s.host request.solver s.model s.data with
      | error e =>
        rw [hbegin] at h
        rw [← hs.host, ← hs.model, ← hs.data] at hbegin
        exact ⟨bench, _, comes_of_beginConversion_error hfind hbegin bench.host,
          shares_of_failConversion hs h⟩
      | ok begun =>
        obtain ⟨host, process, c, errors⟩ := begun
        rw [hbegin] at h
        cases h
        rw [← hs.host, ← hs.model, ← hs.data] at hbegin
        exact ⟨_, _, comes_of_beginConversion_ok hfind hbegin host,
          ⟨hs.model, hs.data, rfl, hs.cache⟩, rfl, rfl⟩
  | converting process c errors =>
    obtain rfl : callStage = .converting process c := hstage
    obtain ⟨status, hended, h⟩ := Option.map_eq_some_iff.mp h
    have hnoted := hs.noteLines (conversionLabel request) errors.rest
    rw [← hs.host] at hended
    have hcomes : Comes bench ⟨request.solver, .converting process c⟩ _ _ :=
      comes_of_ended? hended
    dsimp only at h
    cases hstatus : c.ofStatus status with
    | error e =>
      rw [hstatus] at h hcomes
      exact ⟨bench, _, hcomes, shares_of_failConversion hnoted h⟩
    | ok c' =>
      rw [hstatus] at h hcomes
      have hkept : Shares { s.noteLines (conversionLabel request) errors.rest with
            cache := (s.noteLines (conversionLabel request) errors.rest).cache.insert
              request.solver.name c' }
          { bench with cache := bench.cache.insert request.solver.name c' } :=
        ⟨hnoted.model, hnoted.data, hnoted.host, by rw [hnoted.cache]⟩
      obtain ⟨bench', hlaunch, hlaunched⟩ := exists_comes_of_launchSolver hkept h (.ok c')
      exact ⟨bench', _, hcomes.trans hlaunch, hlaunched⟩
  | streaming process streams reader =>
    obtain ⟨answer, hanswer⟩ := hstage
    simp only [advanceLaunch?] at h
    split at h
    · cases h
    · obtain ⟨status, -, h⟩ := Option.map_eq_some_iff.mp h
      cases h
      have hnoted := hs.noteLines (solverLabel request)
        (streams.errors.rest ++ (streams.filtering.map fun f => f.2.rest).getD [])
      exact ⟨_, _, comes_happen bench.host,
        ⟨hnoted.model, hnoted.data, hnoted.host, hnoted.cache⟩, rfl, answer, hanswer⟩
  | finished => cases h

/-- The first launch that can go on does. -/
theorem follows_advanceFirst? {before tasks : List LaunchTask} (htasks : s.tasks = before ++ tasks)
    (h : s.advanceFirst? before tasks = some s') : s.Follows s' := by
  induction tasks generalizing before with
  | nil => cases h
  | cons task rest ih =>
    unfold advanceFirst? at h
    split at h
    · next s₁ task' hadvance =>
      cases h
      intro w hw
      obtain ⟨callsBefore, call, callsRest, hcalls, hbefore, hcall, hrest⟩ :=
        exists_mirrors_of_append (htasks ▸ hw.calls)
      obtain ⟨bench', call', hcomes, hshares, hcall'⟩ :=
        exists_comes_advanceLaunch? hw.shares hcall hadvance
      obtain ⟨events, hevents⟩ := hcomes callsBefore callsRest
      rw [← hcalls] at hevents
      refine ⟨events, ?_, ?_⟩
      · rw [hevents]
        exact ⟨hshares.model, hshares.data, hshares.host, hshares.cache⟩
      · rw [hevents]
        exact List.rel_append hbefore (.cons hcall' hrest)
    · exact ih (by simpa using htasks) h

/-- What is read for a launch makes no difference for its call. -/
theorem mirrors_drain {task : LaunchTask} (h : task.Mirrors call) :
    (s.drain task).2.Mirrors call := by
  obtain ⟨request, stage⟩ := task
  cases stage <;> exact h

theorem follows_drainFirst? {before tasks : List LaunchTask} (htasks : s.tasks = before ++ tasks)
    (h : s.drainFirst? before tasks = some s') : s.Follows s' := by
  induction tasks generalizing before with
  | nil => cases h
  | cons task rest ih =>
    unfold drainFirst? at h
    split at h
    · cases h
      intro w hw
      obtain ⟨callsBefore, call, callsRest, hcalls, hbefore, hcall, hrest⟩ :=
        exists_mirrors_of_append (htasks ▸ hw.calls)
      have hdrained := hw.shares.of_backdrop (s.backdrop_drain task)
      refine ⟨[.happen fun _ => (s.drain task).1.host],
        ⟨hdrained.model, hdrained.data, hdrained.host, hdrained.cache⟩, ?_⟩
      show List.Forall₂ LaunchTask.Mirrors (before ++ (s.drain task).2 :: rest) w.calls
      rw [hcalls]
      exact List.rel_append hbefore (.cons (mirrors_drain hcall) hrest)
    · exact ih (by simpa using htasks) h

/-! ### Rehearsals -/

theorem follows_background? (h : s.background? = some s') : s.Follows s' := by
  simp only [background?, Option.orElse_eq_orElse, Option.orElse_eq_or,
    Option.or_eq_some_iff] at h
  rcases h with hkill | ⟨-, hdrain | ⟨-, hadvance | ⟨-, hact⟩⟩⟩
  · unfold killDue? at hkill
    dsimp only at hkill
    split at hkill
    · cases hkill
    · cases hkill
      exact follows_of_eq rfl rfl rfl rfl
  · exact follows_drainFirst? rfl hdrain
  · exact follows_advanceFirst? rfl hadvance
  · obtain ⟨host, -, rfl⟩ := Option.map_eq_some_iff.mp hact
    exact follows_of_eq rfl rfl rfl rfl

theorem follows_step? (h : s.step? = some s') : s.Follows s' := by
  unfold step? at h
  split at h
  · cases h
  · cases h
    split
    · next m rest _ =>
      have htaken : s.Follows { s with inbox := rest } := follows_of_eq rfl rfl rfl rfl
      exact htaken.trans (follows_handle _ _)
    · split
      · exact follows_handle _ _
      · split
        · unfold tick
          have hticked : s.Follows { s with
              nextTick := s.nextTick + ((s.now - s.nextTick) / s.run.settings.monitorInterval + 1) *
                s.run.settings.monitorInterval } := follows_of_eq rfl rfl rfl rfl
          exact hticked.trans (follows_handle _ _)
        · split
          · next signal rest _ =>
            have hsignalled : s.Follows
                { s with host := { s.host with scene := { s.host.scene with signals := rest } } } :=
              follows_of_eq rfl rfl rfl rfl
            exact hsignalled.trans (follows_handle _ _)
          · cases hbackground : s.background? with
            | none => exact follows_of_eq rfl rfl rfl rfl
            | some s' => exact follows_background? hbackground

theorem follows_conduct (fuel : Nat) (s : Stage) : s.Follows (conduct fuel s) := by
  induction fuel generalizing s with
  | zero => exact follows_of_eq rfl rfl rfl rfl
  | succ fuel ih =>
    unfold conduct
    split
    · next s' hstep => exact (follows_step? hstep).trans (ih s')
    · exact follows_of_eq rfl rfl rfl rfl

/-- The launches of a rehearsal, as far as it has come, are calls in a workshop. -/
theorem exists_mirrors_conduct (fuel : Nat) (h : Host) (plan : RehearsalPlan) :
    ∃ events, (conduct fuel (begin h plan)).Mirrors
      ((Workshop.opened plan.model plan.data h).run events) := by
  refine (follows_settle _).trans (follows_conduct fuel _) _ ?_
  exact ⟨⟨rfl, rfl, rfl, rfl⟩, .nil⟩

end Stage

end SolverPortfolio

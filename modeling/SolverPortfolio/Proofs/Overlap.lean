import SolverPortfolio.Proofs.Conversions
import SolverPortfolio.Proofs.Workshop

/-
# How often the model is converted for a solver

Calls that are on their way at the same time do not see of each other that a command is
running: the cache has something only once a conversion was put into it. Where none of the
calls for a solver fails, its command is therefore begun only once exactly if no call looks
into the cache while another one is between its look and its answer; then all of them get the
same conversion. Two calls that look together begin it twice.

The calls that need a conversion of their own are counted when they look in vain. Up to the
first conversion all of them are on their way; from then on at least one is not, and nobody
joins them.

Main definitions: `CallStage.isUnderWay`, `Workshop.Looks`, `Workshop.Overlaps`,
`Workshop.Unfailed`, `Workshop.Stride`, `Workshop.Tally`.
Main statements: `Workshop.stride`, `Workshop.needed_run_le_one_iff`,
`Workshop.begun_once_iff`, `Workshop.together_begun_twice`.
-/

namespace SolverPortfolio

namespace CallStage

/-- Is a call between its look into the cache, which was in vain, and its answer? -/
def isUnderWay : CallStage → Bool
  | .missed => true
  | .converting _ _ => true
  | .converted _ => true
  | _ => false

/-- Has a call looked in vain, and not begun its command? -/
def isMissed : CallStage → Bool
  | .missed => true
  | _ => false

section

variable (process : ProcessId) (c : Conversion) (answer : Except ConversionError Conversion)

@[simp] theorem isUnderWay_asked : asked.isUnderWay = false := rfl

@[simp] theorem isUnderWay_missed : missed.isUnderWay = true := rfl

@[simp] theorem isUnderWay_converting : (converting process c).isUnderWay = true := rfl

@[simp] theorem isUnderWay_converted : (converted c).isUnderWay = true := rfl

@[simp] theorem isUnderWay_answered : (answered answer).isUnderWay = false := rfl

@[simp] theorem isMissed_asked : asked.isMissed = false := rfl

@[simp] theorem isMissed_missed : missed.isMissed = true := rfl

@[simp] theorem isMissed_converting : (converting process c).isMissed = false := rfl

@[simp] theorem isMissed_converted : (converted c).isMissed = false := rfl

@[simp] theorem isMissed_answered : (answered answer).isMissed = false := rfl

end

/-- What a step of a call for a solver makes of the bench and of how far the call has come. -/
inductive Turn (solver : String) : Workbench → CallStage → Workbench → CallStage → Prop where
  | rest {bench : Workbench} {stage : CallStage} (hstage : stage ≠ .asked) :
      Turn solver bench stage bench stage
  | found {bench : Workbench} {c : Conversion} (h : bench.cache.find? solver = some c) :
      Turn solver bench .asked bench (.answered (.ok c))
  | missed {bench : Workbench} (h : bench.cache.find? solver = none) :
      Turn solver bench .asked bench .missed
  | begun {bench bench' : Workbench} {process : ProcessId} {c : Conversion}
      (hbegun : bench'.begun = solver :: bench.begun) (hcache : bench'.cache = bench.cache) :
      Turn solver bench .missed bench' (.converting process c)
  | succeeded {bench : Workbench} {process : ProcessId} {c c' : Conversion} :
      Turn solver bench (.converting process c) bench (.converted c')
  | kept {bench : Workbench} {c : Conversion} :
      Turn solver bench (.converted c) { bench with cache := bench.cache.insert solver c }
        (.answered (.ok c))
  | failed {bench : Workbench} {stage : CallStage} {e : ConversionError}
      (hstage : stage.isUnderWay = true) : Turn solver bench stage bench (.answered (.error e))

/-- A step of a call for another solver begins and keeps nothing for a solver. -/
theorem Turn.other {own solver : String} {bench bench' : Workbench} {stage stage' : CallStage}
    (h : Turn own bench stage bench' stage') (hname : own ≠ solver) :
    bench'.begun.count solver = bench.begun.count solver ∧
      bench'.cache.find? solver = bench.cache.find? solver := by
  cases h with
  | begun hbegun hcache => rw [hbegun, hcache, List.count_cons_of_ne hname]; exact ⟨rfl, rfl⟩
  | kept => exact ⟨rfl, ConversionCache.find?_insert_of_ne _ _ (Ne.symm hname)⟩
  | _ => exact ⟨rfl, rfl⟩

end CallStage

namespace Workbench

variable (bench : Workbench) (call : OpenCall)

theorem turn_advance :
    CallStage.Turn call.solver.name bench call.stage (bench.advance call).1
      (bench.advance call).2 := by
  obtain ⟨solver, stage⟩ := call
  cases stage with
  | asked =>
    unfold advance
    dsimp only
    split
    · next c hfind => exact .found hfind
    · next hfind => exact .missed hfind
  | missed =>
    unfold advance
    dsimp only
    split
    · exact .failed rfl
    · exact .begun rfl rfl
  | converting process c =>
    unfold advance
    dsimp only
    split
    · exact .rest nofun
    · split
      · exact .failed rfl
      · exact .succeeded
  | converted c => exact .kept
  | answered answer => exact .rest nofun

/-- To be cancelled makes a difference for a call whose command is running, which fails. -/
theorem cancel_cases :
    (bench.cancel call).1.begun = bench.begun ∧ (bench.cancel call).1.cache = bench.cache ∧
      ((bench.cancel call).2 = call.stage ∨
        ∃ e, call.stage.isUnderWay = true ∧ (bench.cancel call).2 = .answered (.error e)) := by
  obtain ⟨solver, stage⟩ := call
  cases stage with
  | converting process c => exact ⟨rfl, rfl, Or.inr ⟨_, rfl, rfl⟩⟩
  | asked => exact ⟨rfl, rfl, Or.inl rfl⟩
  | missed => exact ⟨rfl, rfl, Or.inl rfl⟩
  | converted c => exact ⟨rfl, rfl, Or.inl rfl⟩
  | answered answer => exact ⟨rfl, rfl, Or.inl rfl⟩

end Workbench

namespace Workshop

/-- At an event, a call for the solver looks into the cache. -/
def Looks (solver : String) (w : Workshop) (e : Event) : Prop :=
  ∃ place call, e = .advance place ∧ w.calls[place]? = some call ∧ call.solver.name = solver ∧
    call.stage = .asked

/-- A call for the solver is between its look into the cache and its answer. -/
def IsBusy (solver : String) (w : Workshop) : Prop :=
  ∃ call ∈ w.calls, call.solver.name = solver ∧ call.stage.isUnderWay = true

/-- Some time during the events, a call for the solver looks into the cache while another one is
between its look and its answer. -/
def Overlaps (solver : String) (w : Workshop) (events : List Event) : Prop :=
  ∃ before e after, events = before ++ e :: after ∧ (w.run before).Looks solver e ∧
    (w.run before).IsBusy solver

/-- No call for the solver has failed. -/
def Unfailed (solver : String) (w : Workshop) : Prop :=
  ∀ call ∈ w.calls, call.solver.name = solver → ∀ e, call.stage ≠ .answered (.error e)

/-- How many calls for the solver are between their look and their answer. -/
def underWay (solver : String) (w : Workshop) : Nat :=
  w.calls.countP fun call => call.solver.name == solver && call.stage.isUnderWay

/-- How many calls for the solver need a conversion of their own: those that have begun their
commands, and those that are about to. -/
def needed (solver : String) (w : Workshop) : Nat :=
  w.bench.begun.count solver +
    w.calls.countP fun call => call.solver.name == solver && call.stage.isMissed

/-- The conversion for the solver in the cache. -/
def kept? (solver : String) (w : Workshop) : Option Conversion := w.bench.cache.find? solver

/-- Calls for the solver are answered as before, or with a conversion. -/
def Answers (solver : String) (w w' : Workshop) (new : Option Conversion) : Prop :=
  ∀ call ∈ w'.calls, call.solver.name = solver → ∀ answer, call.stage = .answered answer →
    call ∈ w.calls ∨ ∃ c ∈ new, answer = .ok c

/-- What an event comes to for a solver whose calls do not fail: nothing; or a call looks, and finds
a conversion or not; or a call puts its conversion into the cache. -/
inductive Stride (solver : String) (w w' : Workshop) (e : Event) : Prop where
  | still (hlooks : ¬ w.Looks solver e) (hunderWay : w'.underWay solver = w.underWay solver)
      (hneeded : w'.needed solver = w.needed solver) (hkept : w'.kept? solver = w.kept? solver)
      (hanswers : Answers solver w w' none)
  | found (c : Conversion) (hfound : w.kept? solver = some c)
      (hunderWay : w'.underWay solver = w.underWay solver)
      (hneeded : w'.needed solver = w.needed solver) (hkept : w'.kept? solver = some c)
      (hanswers : Answers solver w w' (some c))
  | missed (hlooks : w.Looks solver e) (hmissed : w.kept? solver = none)
      (hunderWay : w'.underWay solver = w.underWay solver + 1)
      (hneeded : w'.needed solver = w.needed solver + 1) (hkept : w'.kept? solver = none)
      (hanswers : Answers solver w w' none)
  | kept (c : Conversion) (hlooks : ¬ w.Looks solver e)
      (hunderWay : w.underWay solver = w'.underWay solver + 1)
      (hneeded : w'.needed solver = w.needed solver) (hkept : w'.kept? solver = some c)
      (hanswers : Answers solver w w' (some c))

variable {solver : String} {w : Workshop} {e : Event}

/-! ## One event -/

/-- If no call has failed after an event, then none had before. -/
theorem unfailed_of_step (h : (w.step e).Unfailed solver) : w.Unfailed solver := by
  intro call hmem hname error hanswer
  exact h call (mem_step_of_answered hmem hanswer e) hname error hanswer

section

variable {bench bench' : Workbench} {before after : List OpenCall} {own : Solver}
  {stage stage' : CallStage} {new : Option Conversion}

theorem looks_append_iff :
    Looks solver ⟨bench, before ++ ⟨own, stage⟩ :: after⟩ (.advance before.length) ↔
      own.name = solver ∧ stage = .asked := by
  have hcall : (before ++ ⟨own, stage⟩ :: after)[before.length]? = some ⟨own, stage⟩ := by simp
  constructor
  · rintro ⟨place, other, hplace, hother, hname, hstage⟩
    cases hplace
    cases hcall.symm.trans hother
    exact ⟨hname, hstage⟩
  · rintro ⟨hname, hstage⟩
    exact ⟨before.length, ⟨own, stage⟩, rfl, hcall, hname, hstage⟩

/-- Where one call changes, the others are answered as before. -/
theorem answers_append (h : own.name = solver → ∀ answer, stage' = .answered answer →
      stage = .answered answer ∨ ∃ c ∈ new, answer = .ok c) :
    Answers solver ⟨bench, before ++ ⟨own, stage⟩ :: after⟩
      ⟨bench', before ++ ⟨own, stage'⟩ :: after⟩ new := by
  intro call hcall hname answer hanswer
  simp only [List.mem_append, List.mem_cons] at hcall ⊢
  rcases hcall with hcall | rfl | hcall
  · exact Or.inl (Or.inl hcall)
  · rcases h hname answer hanswer with hsame | hnew
    · exact Or.inl (Or.inr (Or.inl (by rw [hsame, ← hanswer])))
    · exact Or.inr hnew
  · exact Or.inl (Or.inr (Or.inr hcall))

/-- What becomes of a call for another solver comes to nothing. -/
theorem stride_of_ne (hname : own.name ≠ solver)
    (hcount : bench'.begun.count solver = bench.begun.count solver)
    (hkept : bench'.cache.find? solver = bench.cache.find? solver)
    (hlooks : ¬ Looks solver ⟨bench, before ++ ⟨own, stage⟩ :: after⟩ e) :
    Stride solver ⟨bench, before ++ ⟨own, stage⟩ :: after⟩
      ⟨bench', before ++ ⟨own, stage'⟩ :: after⟩ e := by
  refine .still hlooks ?_ ?_ hkept (answers_append fun hown => absurd hown hname)
  · simp [underWay, hname]
  · simp [needed, hname, hcount]

/-- A step of a call for the solver, which does not fail. -/
theorem stride_of_eq (hname : own.name = solver)
    (h : CallStage.Turn solver bench stage bench' stage')
    (hunfailed : ∀ e, stage' ≠ .answered (.error e)) :
    Stride solver ⟨bench, before ++ ⟨own, stage⟩ :: after⟩
      ⟨bench', before ++ ⟨own, stage'⟩ :: after⟩ (.advance before.length) := by
  have hlooks : Looks solver ⟨bench, before ++ ⟨own, stage⟩ :: after⟩ (.advance before.length) ↔
      stage = .asked := by rw [looks_append_iff, and_iff_right hname]
  cases h with
  | rest hstage =>
    exact .still (hlooks.not.mpr hstage) rfl rfl rfl (answers_append fun _ _ h => Or.inl h)
  | @found c hfound =>
    refine .found c hfound ?_ ?_ hfound (answers_append ?_)
    · simp [underWay]
    · simp [needed]
    · rintro - answer ⟨⟩
      exact Or.inr ⟨c, rfl, rfl⟩
  | missed hmissed =>
    refine .missed (hlooks.mpr rfl) hmissed ?_ ?_ hmissed (answers_append nofun)
    · simp [underWay, hname]
      omega
    · simp [needed, hname]
      omega
  | begun hbegun hcache =>
    refine .still (hlooks.not.mpr nofun) ?_ ?_ ?_ (answers_append nofun)
    · simp [underWay, List.countP_cons]
    · simp [needed, hname, hbegun]
      omega
    · simp [kept?, hcache]
  | succeeded =>
    refine .still (hlooks.not.mpr nofun) ?_ ?_ rfl (answers_append nofun)
    · simp [underWay, List.countP_cons]
    · simp [needed]
  | @kept c =>
    refine .kept c (hlooks.not.mpr nofun) ?_ ?_ ?_ (answers_append ?_)
    · simp [underWay, hname]
      omega
    · simp [needed]
    · exact ConversionCache.find?_insert_self _ _ _
    · rintro - answer ⟨⟩
      exact Or.inr ⟨c, rfl, rfl⟩
  | failed => exact absurd rfl (hunfailed _)

end

/-- Only a call that takes its next step looks. -/
theorem not_looks (h : ∀ place, e ≠ .advance place) : ¬ w.Looks solver e := by
  rintro ⟨place, call, he, -⟩
  exact h place he

/-- What an event can come to. -/
theorem stride (h : (w.step e).Unfailed solver) : Stride solver w (w.step e) e := by
  cases e with
  | ask other =>
    refine .still (not_looks (by simp)) ?_ ?_ rfl ?_
    · simp [step, underWay, CallStage.isUnderWay]
    · simp [step, needed, CallStage.isMissed]
    · intro call hcall hname answer hanswer
      rcases List.mem_append.mp hcall with hcall | hcall
      · exact Or.inl hcall
      · rw [List.mem_singleton] at hcall
        rw [hcall] at hanswer
        cases hanswer
  | happen change =>
    exact .still (not_looks (by simp)) rfl rfl rfl fun call hcall _ _ _ => Or.inl hcall
  | advance place =>
    rcases atCall_cases place Workbench.advance with
      ⟨hnone, hsame⟩ | ⟨before, call, after, hw, hplace⟩
    · rw [step, hsame]
      refine .still ?_ rfl rfl rfl fun call hcall _ _ _ => Or.inl hcall
      rintro ⟨place, call, ⟨⟩, hcall, -⟩
      cases hnone.symm.trans hcall
    · obtain ⟨own, stage⟩ := call
      have hturn := w.bench.turn_advance ⟨own, stage⟩
      rw [step, hplace, hw, atCall_append] at h ⊢
      by_cases hname : own.name = solver
      · rw [hname] at hturn
        refine stride_of_eq hname hturn fun error herror => ?_
        exact h _ (List.mem_append_right _ List.mem_cons_self) hname error herror
      · obtain ⟨hcount, hkept⟩ := hturn.other hname
        refine stride_of_ne hname hcount hkept ?_
        rw [looks_append_iff]
        exact fun hlooks => hname hlooks.1
  | cancel place =>
    rcases atCall_cases place Workbench.cancel with
      ⟨hnone, hsame⟩ | ⟨before, call, after, hw, hplace⟩
    · rw [step, hsame]
      exact .still (not_looks (by simp)) rfl rfl rfl fun call hcall _ _ _ => Or.inl hcall
    · obtain ⟨own, stage⟩ := call
      obtain ⟨hbegun, hcache, hstage⟩ := w.bench.cancel_cases ⟨own, stage⟩
      rw [step, hplace, hw, atCall_append] at h ⊢
      by_cases hname : own.name = solver
      · rcases hstage with hsame | ⟨error, -, herror⟩
        · refine .still (not_looks (by simp)) ?_ ?_ ?_
            (answers_append fun _ answer hanswer => Or.inl ?_)
          · rw [hsame]
            rfl
          · rw [hsame, needed, hbegun]
            rfl
          · rw [kept?, hcache]
            rfl
          · exact hsame.symm.trans hanswer
        · exact absurd herror (h _ (List.mem_append_right _ List.mem_cons_self) hname error)
      · exact stride_of_ne hname (by rw [hbegun]) (by rw [hcache]) (not_looks (by simp))

/-! ## All events -/

/-- How the calls for a solver stand, unless one has failed. Those that need conversions of their
own are on their way, but for the ones that have put theirs into the cache. -/
structure Tally (solver : String) (w : Workshop) : Prop where
  early : w.kept? solver = none → w.needed solver = w.underWay solver
  late : ∀ c, w.kept? solver = some c → w.underWay solver < w.needed solver

/-- All answers for the solver are the conversion in the cache. -/
def Agrees (solver : String) (w : Workshop) : Prop :=
  ∀ call ∈ w.calls, call.solver.name = solver → ∀ answer, call.stage = .answered answer →
    ∃ c, w.kept? solver = some c ∧ answer = .ok c

variable {w' : Workshop}

theorem Tally.stride (h : w.Tally solver) (hs : Stride solver w w' e) : w'.Tally solver := by
  cases hs with
  | still hlooks hunderWay hneeded hkept hanswers =>
    refine ⟨?_, ?_⟩
    · rw [hkept, hneeded, hunderWay]
      exact h.early
    · rw [hkept, hneeded, hunderWay]
      exact h.late
  | found c hfound hunderWay hneeded hkept hanswers =>
    refine ⟨fun hnone => ?_, fun _ _ => ?_⟩
    · cases hnone.symm.trans hkept
    · rw [hneeded, hunderWay]
      exact h.late c hfound
  | missed hlooks hmissed hunderWay hneeded hkept hanswers =>
    refine ⟨fun _ => ?_, fun c hc => ?_⟩
    · rw [hneeded, hunderWay, h.early hmissed]
    · cases hkept.symm.trans hc
  | kept c hlooks hunderWay hneeded hkept hanswers =>
    refine ⟨fun hnone => ?_, fun _ _ => ?_⟩
    · cases hnone.symm.trans hkept
    · have hle : w.underWay solver ≤ w.needed solver := by
        cases hold : w.kept? solver with
        | none => exact Nat.le_of_eq (h.early hold).symm
        | some c' => exact Nat.le_of_lt (h.late c' hold)
      omega

/-- What is answered is in the cache as long as only one call has needed a conversion. -/
theorem Agrees.stride (h : w.Agrees solver) (htally : w.Tally solver)
    (hs : Stride solver w w' e) (hone : w'.needed solver ≤ 1) : w'.Agrees solver := by
  intro call hcall hname answer hanswer
  cases hs with
  | still hlooks hunderWay hneeded hkept hanswers =>
    rcases hanswers call hcall hname answer hanswer with hold | ⟨c, hc, -⟩
    · rw [hkept]
      exact h call hold hname answer hanswer
    · cases hc
  | found c hfound hunderWay hneeded hkept hanswers =>
    rcases hanswers call hcall hname answer hanswer with hold | ⟨c', hc, rfl⟩
    · rw [hkept, ← hfound]
      exact h call hold hname answer hanswer
    · cases hc
      exact ⟨c, hkept, rfl⟩
  | missed hlooks hmissed hunderWay hneeded hkept hanswers =>
    rcases hanswers call hcall hname answer hanswer with hold | ⟨c, hc, -⟩
    · rw [hkept, ← hmissed]
      exact h call hold hname answer hanswer
    · cases hc
  | kept c hlooks hunderWay hneeded hkept hanswers =>
    rcases hanswers call hcall hname answer hanswer with hold | ⟨c', hc, rfl⟩
    -- The call that keeps its conversion is the only one that needed one, so none was there.
    · obtain ⟨c', hc', -⟩ := h call hold hname answer hanswer
      have hlt := htally.late c' hc'
      omega
    · cases hc
      exact ⟨c, hkept, rfl⟩

theorem isBusy_iff : w.IsBusy solver ↔ 0 < w.underWay solver := by
  simp [IsBusy, underWay, List.countP_pos_iff]

theorem overlaps_concat {events : List Event} :
    Overlaps solver w (events ++ [e]) ↔
      Overlaps solver w events ∨ (w.run events).Looks solver e ∧ (w.run events).IsBusy solver :=
  exists_split_concat

/-- A look while another call is between its own look and its answer makes two calls that need
conversions, and there is no other way. -/
theorem needed_stride_le_one_iff (htally : w.Tally solver) (hs : Stride solver w w' e) :
    w'.needed solver ≤ 1 ↔
      w.needed solver ≤ 1 ∧ ¬ (w.Looks solver e ∧ w.IsBusy solver) := by
  rw [isBusy_iff]
  cases hs with
  | still hlooks hunderWay hneeded hkept hanswers =>
    rw [hneeded]
    exact (and_iff_left fun hboth => hlooks hboth.1).symm
  | found c hfound hunderWay hneeded hkept hanswers =>
    have hlt := htally.late c hfound
    rw [hneeded]
    refine (and_iff_left_of_imp fun hone hboth => ?_).symm
    omega
  | missed hlooks hmissed hunderWay hneeded hkept hanswers =>
    have hearly := htally.early hmissed
    rw [hneeded, and_iff_right hlooks]
    omega
  | kept c hlooks hunderWay hneeded hkept hanswers =>
    rw [hneeded]
    exact (and_iff_left fun hboth => hlooks hboth.1).symm

/-- After any events, if no call for the solver has failed: at most one of them has needed a
conversion exactly if none looked while another was between its look and its answer, and then all
answers are the same. -/
theorem needed_run_le_one_iff {model : String} {data : Option String} {host : Host}
    {events : List Event} (h : ((opened model data host).run events).Unfailed solver) :
    ((opened model data host).run events).Tally solver ∧
      (((opened model data host).run events).needed solver ≤ 1 ↔
        ¬ Overlaps solver (opened model data host) events) ∧
      (((opened model data host).run events).needed solver ≤ 1 →
        ((opened model data host).run events).Agrees solver) := by
  -- The events are taken from the end: a call that fails at one of them has failed ever after.
  induction events using List.reverseRecOn with
  | nil =>
    refine ⟨⟨fun _ => rfl, nofun⟩, iff_of_true (Nat.zero_le 1) ?_, fun _ => nofun⟩
    rintro ⟨before, e, after, heq, -⟩
    simp at heq
  | append_singleton events e ih =>
    rw [run_append, run_cons, run_nil] at h ⊢
    have hs := stride h
    obtain ⟨htally, hiff, hagrees⟩ := ih (unfailed_of_step h)
    have hone := needed_stride_le_one_iff htally hs
    refine ⟨htally.stride hs, ?_, ?_⟩
    · rw [hone, hiff, overlaps_concat, not_or]
    · intro hle
      exact (hagrees (hone.mp hle).1).stride htally hs hle

/-- If all calls for a solver come to conversions, its command has been begun only once exactly if
none of them looked into the cache while another one was between its look and its answer; and then
all have got the same conversion. -/
theorem begun_once_iff {model : String} {data : Option String} {host : Host}
    {events : List Event} (hw : w = (opened model data host).run events)
    (h : ∀ call ∈ w.calls, call.solver.name = solver → ∃ c, call.stage = .answered (.ok c)) :
    (w.bench.begun.count solver ≤ 1 ↔ ¬ Overlaps solver (opened model data host) events) ∧
    (¬ Overlaps solver (opened model data host) events →
      ∀ call ∈ w.calls, call.solver.name = solver →
      ∀ other ∈ w.calls, other.solver.name = solver → call.stage = other.stage) := by
  have hunfailed : w.Unfailed solver := by
    intro call hcall hname e he
    obtain ⟨c, hc⟩ := h call hcall hname
    cases hc.symm.trans he
  obtain ⟨-, hiff, hagrees⟩ := needed_run_le_one_iff (hw ▸ hunfailed)
  rw [← hw] at hiff hagrees
  -- Calls that have their answers are not about to begin anything.
  have hneeded : w.needed solver = w.bench.begun.count solver := by
    rw [needed, Nat.add_eq_left, List.countP_eq_zero]
    intro call hcall hmissed
    simp only [Bool.and_eq_true, beq_iff_eq] at hmissed
    obtain ⟨c, hc⟩ := h call hcall hmissed.1
    rw [hc] at hmissed
    exact Bool.false_ne_true hmissed.2
  rw [hneeded] at hiff hagrees
  refine ⟨hiff, ?_⟩
  intro hoverlaps call hcall hname other hother hname'
  have hsame := hagrees (hiff.mpr hoverlaps)
  obtain ⟨c, hc⟩ := h call hcall hname
  obtain ⟨c', hc'⟩ := h other hother hname'
  obtain ⟨kept, hkept, hanswer⟩ := hsame call hcall hname _ hc
  obtain ⟨kept', hkept', hanswer'⟩ := hsame other hother hname' _ hc'
  cases hkept.symm.trans hkept'
  rw [hc, hc', hanswer, hanswer']

/-! ## Two calls -/

/-- Two calls in turn: the second one looks when the first one has its answer. -/
def inTurn : List Event :=
  [.ask .quick, .ask .quick, .advance 0, .advance 0, .happen (Host.runUntil (fun _ => false) 1),
    .advance 0, .advance 0, .advance 1]

theorem run_inTurn :
    ((opened "/m" none .equipped).run inTurn).calls =
        [⟨.quick, .answered (.ok ⟨"/tmp/portfolio-1.fzn", "/tmp/portfolio-2.ozn"⟩)⟩,
          ⟨.quick, .answered (.ok ⟨"/tmp/portfolio-1.fzn", "/tmp/portfolio-2.ozn"⟩)⟩] ∧
      ((opened "/m" none .equipped).run inTurn).bench.begun = ["b"] := by
  have hname : Solver.quick.name = "b" := rfl
  have hended : (Host.runUntil (fun _ => false) 1 Host.equipped.engaged).ended? 1000 =
      some (.exited 0) := by decide +kernel
  simp [inTurn, opened, step, atCall, Workbench.advance, Host.beginConversion_equipped, hended,
    Conversion.ofStatus, ExitStatus.isSuccess, hname]

/-- Then the command is begun once. -/
theorem inTurn_begun_once :
    (∀ call ∈ ((opened "/m" none .equipped).run inTurn).calls, call.solver.name = "b" →
      ∃ c, call.stage = .answered (.ok c)) ∧
    (((opened "/m" none .equipped).run inTurn).bench.begun.count "b" ≤ 1 ↔
      ¬ Overlaps "b" (opened "/m" none .equipped) inTurn) ∧
    ¬ Overlaps "b" (opened "/m" none .equipped) inTurn := by
  have hanswered : ∀ call ∈ ((opened "/m" none .equipped).run inTurn).calls,
      call.solver.name = "b" → ∃ c, call.stage = .answered (.ok c) := by
    rw [run_inTurn.1]
    simp
  have hiff := (begun_once_iff rfl hanswered).1
  refine ⟨hanswered, hiff, hiff.mp ?_⟩
  rw [run_inTurn.2]
  decide

/-- Two calls together: both look before one of them has its answer. -/
def together : List Event :=
  [.ask .quick, .ask .quick, .advance 0, .advance 1, .advance 0, .advance 1,
    .happen (Host.runUntil (fun _ => false) 2), .advance 0, .advance 1, .advance 0, .advance 1]

theorem run_together :
    ((opened "/m" none .equipped).run together).calls =
        [⟨.quick, .answered (.ok ⟨"/tmp/portfolio-1.fzn", "/tmp/portfolio-2.ozn"⟩)⟩,
          ⟨.quick, .answered (.ok ⟨"/tmp/portfolio-3.fzn", "/tmp/portfolio-4.ozn"⟩)⟩] ∧
      ((opened "/m" none .equipped).run together).bench.begun = ["b", "b"] := by
  have hname : Solver.quick.name = "b" := rfl
  have hfiles : Host.equipped.engaged.newConversion.2 =
      ⟨"/tmp/portfolio-3.fzn", "/tmp/portfolio-4.ozn"⟩ := by decide +kernel
  have hsecond : Stage.beginConversion Host.equipped.engaged .quick "/m" none =
      .ok (Host.equipped.engaged.engaged, 1001,
        ⟨"/tmp/portfolio-3.fzn", "/tmp/portfolio-4.ozn"⟩, Tap.start 1) := by
    rw [Host.beginConversion_quick (by decide +kernel) (by decide +kernel), hfiles]
    rfl
  have hended : (Host.runUntil (fun _ => false) 2 Host.equipped.engaged.engaged).ended? 1000 =
      some (.exited 0) := by decide +kernel
  have hended' : (Host.runUntil (fun _ => false) 2 Host.equipped.engaged.engaged).ended? 1001 =
      some (.exited 0) := by decide +kernel
  simp [together, opened, step, atCall, Workbench.advance, Host.beginConversion_equipped, hsecond,
    hended, hended', Conversion.ofStatus, ExitStatus.isSuccess, hname]

/-- Then the command is begun twice although no call fails, and the calls get different
conversions. -/
theorem together_begun_twice :
    (∀ call ∈ ((opened "/m" none .equipped).run together).calls, call.solver.name = "b" →
      ∃ c, call.stage = .answered (.ok c)) ∧
    ((opened "/m" none .equipped).run together).bench.begun.count "b" = 2 ∧
    ∃ call ∈ ((opened "/m" none .equipped).run together).calls, call.solver.name = "b" ∧
      ∃ other ∈ ((opened "/m" none .equipped).run together).calls, other.solver.name = "b" ∧
        call.stage ≠ other.stage := by
  rw [run_together.1, run_together.2]
  refine ⟨by simp, by decide, _, List.mem_cons_self, rfl, _,
    List.mem_cons_of_mem _ List.mem_cons_self, rfl, ?_⟩
  simp

end Workshop

end SolverPortfolio

import Mathlib.Data.List.Induction
import SolverPortfolio.Rehearsal.Launching

/-
# Conversions one after another

Calls for conversions are made of one cache, one after another, for any solvers and with any
commands. What the machine does during a call is left open: whether there are files and the command
begins, how it ends if it does, and whether and when the call is cancelled; and the machine may have
come to any state between two calls. The cache is a function of the calls made so far: it has the
conversion for a solver exactly if one of them was answered with it. So all calls after that one are
answered alike and leave the machine alone; until then every call makes the attempt anew, and one
that fails leaves the cache as it was. What a call comes to depends on the earlier calls for its own
solver only: those for others can be left out.

Main definitions: `ConversionCall`, `ConversionCall.make`, `ConversionCache.after`,
`ConversionCall.Answered`.
Main statements: `ConversionCache.find?_after`, `ConversionCache.find?_after_filter`,
`ConversionCall.answered_lawful`.
-/

namespace SolverPortfolio

/-- What is so at some place of a list with one more element at the end is so at a place of the list,
or at the end. -/
theorem exists_split_concat {α : Type} {p : List α → α → Prop} {xs : List α} {last : α} :
    (∃ before x after, xs ++ [last] = before ++ x :: after ∧ p before x) ↔
      (∃ before x after, xs = before ++ x :: after ∧ p before x) ∨ p xs last := by
  constructor
  · rintro ⟨before, x, after, heq, hp⟩
    rcases List.eq_nil_or_concat after with rfl | ⟨after, y, rfl⟩
    · obtain ⟨rfl, hx⟩ := List.append_inj' heq rfl
      obtain rfl := List.head_eq_of_cons_eq hx
      exact Or.inr hp
    · rw [List.concat_eq_append, ← List.cons_append, ← List.append_assoc] at heq
      exact Or.inl ⟨before, x, after, (List.append_inj' heq rfl).1, hp⟩
  · rintro (⟨before, x, after, rfl, hp⟩ | hp)
    · exact ⟨before, x, after ++ [last], by simp, hp⟩
    · exact ⟨xs, last, [], rfl, hp⟩

/-- A call for a conversion: the solver, the machine, and the state in which the call finds it. -/
structure ConversionCall (σ : Type) where
  solver : Solver
  machine : ConversionMachine σ
  state : σ

section

variable {σ : Type} (model : String) (data : Option String)

/-- The attempt of a call to convert the model: what becomes of the machine, and what comes of it. -/
def ConversionCall.attempt (call : ConversionCall σ) :
    σ × Option (Except ConversionError Conversion) :=
  call.machine.attempt call.solver model data call.state

/-- What becomes of the machine and of the cache in a call, and the answer. -/
def ConversionCall.make (call : ConversionCall σ) (cache : ConversionCache) :
    σ × ConversionCache × Option (Except ConversionError Conversion) :=
  cache.convert call.machine call.solver model data call.state

/-- The cache after some calls. -/
def ConversionCache.after (cache : ConversionCache) (calls : List (ConversionCall σ)) :
    ConversionCache :=
  calls.foldl (fun cache call => (call.make model data cache).2.1) cache

/-- One of the calls was for the solver, and was answered with the conversion. -/
def ConversionCall.Answered (calls : List (ConversionCall σ)) (solver : String) (c : Conversion) :
    Prop :=
  ∃ before call later, calls = before ++ call :: later ∧ call.solver.name = solver ∧
    (call.make model data (ConversionCache.empty.after model data before)).2.2 = some (.ok c)

end

variable {σ : Type} {model : String} {data : Option String} {cache : ConversionCache}
  {call : ConversionCall σ}

/-! ## One call -/

namespace ConversionCache

/-- Where nothing was, a conversion is found if and only if it was kept. -/
theorem find?_keep_self {solver : String} (h : cache.find? solver = none)
    {answer : Option (Except ConversionError Conversion)} {c : Conversion} :
    (cache.keep solver answer).find? solver = some c ↔ answer = some (.ok c) := by
  rcases answer with _ | e | c'
  · simp [keep, h]
  · simp [keep, h]
  · rw [keep, cache.find?_insert_self solver c', Option.some_inj, Option.some_inj, Except.ok.injEq]

/-- What is kept for one solver has no influence on the conversions for others. -/
theorem find?_keep_of_ne {solver other : String} (h : other ≠ solver)
    (answer : Option (Except ConversionError Conversion)) :
    (cache.keep solver answer).find? other = cache.find? other := by
  rcases answer with _ | e | c
  · rfl
  · rfl
  · exact cache.find?_insert_of_ne c h

/-- What is not a conversion is not kept. -/
theorem keep_of_ne_ok {solver : String} {answer : Option (Except ConversionError Conversion)}
    (h : ∀ c, answer ≠ some (.ok c)) : cache.keep solver answer = cache := by
  rcases answer with _ | e | c
  · rfl
  · rfl
  · exact absurd rfl (h c)

end ConversionCache

namespace ConversionCall

/-- A conversion in the cache is the answer, and nothing else happens. -/
theorem make_of_eq_some {c : Conversion} (h : cache.find? call.solver.name = some c) :
    call.make model data cache = (call.state, cache, some (.ok c)) :=
  ConversionCache.convert_of_eq_some _ _ _ _ h

/-- Without one, the attempt is made, and what comes of it is kept. -/
theorem make_of_eq_none (h : cache.find? call.solver.name = none) :
    call.make model data cache = ((call.attempt model data).1,
      cache.keep call.solver.name (call.attempt model data).2, (call.attempt model data).2) :=
  ConversionCache.convert_of_eq_none _ _ _ _ h

/-- A call that is not answered with a conversion has found none, and leaves the cache as it was. -/
theorem make_of_ne_ok (h : ∀ c, (call.make model data cache).2.2 ≠ some (.ok c)) :
    cache.find? call.solver.name = none ∧ (call.make model data cache).2.1 = cache := by
  cases hfind : cache.find? call.solver.name with
  | some c => exact absurd (congrArg (·.2.2) (make_of_eq_some hfind)) (h c)
  | none =>
    rw [make_of_eq_none hfind] at h ⊢
    exact ⟨rfl, ConversionCache.keep_of_ne_ok h⟩

/-- A call has no influence on the conversions for other solvers. -/
theorem find?_make_of_ne {other : String} (h : other ≠ call.solver.name) :
    (call.make model data cache).2.1.find? other = cache.find? other := by
  cases hfind : cache.find? call.solver.name with
  | some c => rw [make_of_eq_some hfind]
  | none =>
    rw [make_of_eq_none hfind]
    exact ConversionCache.find?_keep_of_ne h _

/-- After a call, the cache has a conversion if and only if it was the answer. -/
theorem find?_make_self {c : Conversion} :
    (call.make model data cache).2.1.find? call.solver.name = some c ↔
      (call.make model data cache).2.2 = some (.ok c) := by
  cases hfind : cache.find? call.solver.name with
  | some c' =>
    rw [make_of_eq_some hfind]
    dsimp only
    rw [hfind, Option.some_inj, Option.some_inj, Except.ok.injEq]
  | none =>
    rw [make_of_eq_none hfind]
    exact ConversionCache.find?_keep_self hfind

/-- What a call comes to depends on what the cache has for its own solver only. -/
theorem make_congr {cache' : ConversionCache}
    (h : cache'.find? call.solver.name = cache.find? call.solver.name) :
    (call.make model data cache').1 = (call.make model data cache).1 ∧
      (call.make model data cache').2.2 = (call.make model data cache).2.2 := by
  unfold make ConversionCache.convert
  rw [h]
  cases cache.find? call.solver.name with
  | some c => exact ⟨rfl, rfl⟩
  | none => exact ⟨rfl, rfl⟩

/-- One more call at the end is one more that may have been answered with the conversion. -/
theorem answered_concat {calls : List (ConversionCall σ)} {solver : String} {c : Conversion} :
    Answered model data (calls ++ [call]) solver c ↔
      Answered model data calls solver c ∨ call.solver.name = solver ∧
        (call.make model data (ConversionCache.empty.after model data calls)).2.2 =
          some (.ok c) :=
  exists_split_concat

end ConversionCall

/-! ## Calls one after another -/

namespace ConversionCache

open ConversionCall (Answered answered_concat)

/-- The last of some calls is made of the cache after the others. -/
theorem after_concat (calls : List (ConversionCall σ)) (call : ConversionCall σ) :
    cache.after model data (calls ++ [call]) =
      (call.make model data (cache.after model data calls)).2.1 := by
  rw [after, List.foldl_append]
  rfl

/-- The cache has the conversion for a solver if and only if a call for the solver was answered with
it. -/
theorem find?_after (calls : List (ConversionCall σ)) (solver : String) (c : Conversion) :
    (empty.after model data calls).find? solver = some c ↔
      Answered model data calls solver c := by
  -- The calls are taken from the end, where the cache is the one that the last call leaves.
  induction calls using List.reverseRecOn with
  | nil =>
    constructor
    · intro h
      cases h
    · rintro ⟨before, call, later, heq, -⟩
      simp at heq
  | append_singleton calls call ih =>
    rw [after_concat, answered_concat, ← ih]
    by_cases hname : call.solver.name = solver
    · subst hname
      rw [ConversionCall.find?_make_self]
      constructor
      · intro hok
        exact Or.inr ⟨rfl, hok⟩
      · rintro (hfind | ⟨-, hok⟩)
        · rw [ConversionCall.make_of_eq_some hfind]
        · exact hok
    · rw [ConversionCall.find?_make_of_ne (Ne.symm hname)]
      constructor
      · exact Or.inl
      · rintro (hfind | ⟨hname', -⟩)
        · exact hfind
        · exact absurd hname' hname

/-- Calls for other solvers can be left out. -/
theorem find?_after_filter (calls : List (ConversionCall σ)) (solver : String) :
    (cache.after model data (calls.filter (·.solver.name = solver))).find? solver =
      (cache.after model data calls).find? solver := by
  induction calls using List.reverseRecOn with
  | nil => rfl
  | append_singleton calls call ih =>
    rw [List.filter_append, List.filter_cons, List.filter_nil, after_concat]
    by_cases hname : call.solver.name = solver
    · subst hname
      rw [if_pos (decide_eq_true rfl), after_concat]
      refine Option.ext fun c => ?_
      rw [ConversionCall.find?_make_self, ConversionCall.find?_make_self,
        (ConversionCall.make_congr ih).2]
    · rw [if_neg (by simpa using hname), List.append_nil, ih,
        ConversionCall.find?_make_of_ne (Ne.symm hname)]

end ConversionCache

/-- After any calls, a call for a solver for which one of them was answered with a conversion is
answered with the same one, and nothing else happens, whatever the machine is like and whatever it
would do; otherwise the attempt is made, and what comes of it is kept. If no conversion comes of it,
the cache stays as it was, and the next call for the solver makes the attempt anew. And the call
would come to the same had there been no calls for other solvers before. -/
theorem ConversionCall.answered_lawful (model : String) (data : Option String)
    (calls : List (ConversionCall σ)) (call : ConversionCall σ) :
    let cache := ConversionCache.empty.after model data calls
    let own := calls.filter (·.solver.name = call.solver.name)
    (∀ c, Answered model data calls call.solver.name c →
      call.make model data cache = (call.state, cache, some (.ok c))) ∧
    ((¬ ∃ c, Answered model data calls call.solver.name c) →
      call.make model data cache = ((call.attempt model data).1,
        cache.keep call.solver.name (call.attempt model data).2, (call.attempt model data).2)) ∧
    ((∀ c, (call.make model data cache).2.2 ≠ some (.ok c)) →
      (call.make model data cache).2.1 = cache ∧
      ∀ next : ConversionCall σ, next.solver.name = call.solver.name →
        next.make model data cache = ((next.attempt model data).1,
          cache.keep next.solver.name (next.attempt model data).2,
          (next.attempt model data).2)) ∧
    (call.make model data (ConversionCache.empty.after model data own)).1 =
      (call.make model data cache).1 ∧
    (call.make model data (ConversionCache.empty.after model data own)).2.2 =
      (call.make model data cache).2.2 := by
  intro cache own
  refine ⟨?_, ?_, ?_, ?_⟩
  · intro c hc
    exact make_of_eq_some ((ConversionCache.find?_after calls _ c).mpr hc)
  · intro hnone
    refine make_of_eq_none (Option.eq_none_iff_forall_ne_some.mpr ?_)
    intro c hc
    exact hnone ⟨c, (ConversionCache.find?_after calls _ c).mp hc⟩
  · intro hne
    -- The call has found nothing, and nothing is kept: the next one finds nothing either.
    obtain ⟨hfind, hsame⟩ := make_of_ne_ok hne
    refine ⟨hsame, fun next hname => make_of_eq_none ?_⟩
    rw [hname]
    exact hfind
  · exact make_congr (ConversionCache.find?_after_filter calls call.solver.name)

/-! ## A host that converts at once -/

/-- A solver whose command for conversions is a program without arguments. -/
def Solver.quick : Solver where
  name := "b"
  convert := ["convert"]
  run := ["fzn"]
  output := none
  minimizeConstraint := ""
  maximizeConstraint := ""
  allSolutionsFlag := "-a"
  freeSearchFlag := "-f"

namespace Host

/-- A host with a program for conversions that has nothing to do. -/
def equipped : Host where
  scene :=
    { now := 0
      disk := ⟨[(["bin", "convert"], .program (.script [])), (["tmp"], .directory)], Path.home⟩
      marks := []
      signals := []
      pipes := []
      nextProcess := 1000
      nextPipe := 0 }
  processes := []
  nextFile := 1

/-- Is there a program for conversions that has nothing to do? -/
def isEquipped (h : Host) : Bool :=
  match Disk.programDirectories.findSome? fun path => h.disk.nodes.lookup (path ++ ["convert"]) with
  | some (.program (.script [])) => true
  | _ => false

/-- The host with the files of one more conversion, and these files. -/
def newConversion (h : Host) : Host × Conversion :=
  let (h, fzn) := h.newFile "fzn"
  let (h, ozn) := h.newFile "ozn"
  (h, ⟨fzn, ozn⟩)

/-- The host once the program was begun. -/
def busy (h : Host) : Host :=
  let (h, errors) := h.newPipe true false
  let id := h.scene.nextProcess
  let b := (Program.script []).begin h.disk (Octets.ofString "convert") ([].map Octets.ofString)
    environment id none
  { h with
    scene := { h.scene with nextProcess := id + 1 }
    processes := h.processes ++ [
      { id
        group := id
        parent := none
        handles := Handles.standard .nothing .nothing (.writer errors)
        frames := b.frames
        shell := b.shell
        line := 1
        directory := Path.home
        wait := .nothing
        stopped := false
        ignored := []
        pending := []
        ended := none
        isNoticed := false }] }

/-- The host once one more conversion was begun. -/
def engaged (h : Host) : Host := h.newConversion.1.busy

/-- The program is found when it is called by its name. -/
theorem program_of_isEquipped {h : Host} (hequipped : h.isEquipped = true) :
    h.disk.program "convert" = .ok (.script []) := by
  have hslash : "convert".contains '/' = false := by cbv
  unfold isEquipped at hequipped
  split at hequipped
  · next hprogram =>
    rw [Disk.program, hprogram, hslash, if_neg Bool.false_ne_true, if_neg (by decide),
      if_neg (by decide), if_neg (by decide)]
  · cases hequipped

/-- The program begins. -/
theorem beginConverting_of_isEquipped {h : Host} (hequipped : h.isEquipped = true) :
    Stage.beginConverting h ⟨"convert", []⟩ =
      .ok (h.busy, h.scene.nextProcess, h.scene.nextPipe) := by
  have hzero : ["convert"].any (·.contains '\x00') = false := by cbv
  have hdisk : (h.newPipe true false).1.disk = h.disk := rfl
  unfold Stage.beginConverting
  simp only [spawn, hzero, hdisk, program_of_isEquipped hequipped]
  rfl

/-- The files are made, and the command is the program. -/
theorem prepare_quick {h : Host} {model : String} {data : Option String}
    (hcommand : h.newConversion.2.command Solver.quick model data = ["convert"]) :
    Conversion.prepare Stage.conversionFile Solver.quick model data h =
      (h.newConversion.1, .ok (h.newConversion.2, ⟨"convert", []⟩)) := by
  unfold Conversion.prepare
  simp only [Stage.conversionFile]
  unfold newConversion at hcommand
  simp only [hcommand, Command.ofList?]
  rfl

/-- The conversion begins. -/
theorem beginConversion_quick {h : Host} {model : String} {data : Option String}
    (hcommand : h.newConversion.2.command Solver.quick model data = ["convert"])
    (hequipped : h.newConversion.1.isEquipped = true) :
    Stage.beginConversion h Solver.quick model data =
      .ok (h.engaged, h.scene.nextProcess, h.newConversion.2, Tap.start h.scene.nextPipe) := by
  rw [Stage.beginConversion, prepare_quick hcommand]
  dsimp only
  rw [beginConverting_of_isEquipped hequipped]
  rfl

theorem newConversion_equipped :
    equipped.newConversion.2 = ⟨"/tmp/portfolio-1.fzn", "/tmp/portfolio-2.ozn"⟩ := by
  decide +kernel

theorem beginConversion_equipped :
    Stage.beginConversion equipped Solver.quick "/m" none =
      .ok (equipped.engaged, 1000, ⟨"/tmp/portfolio-1.fzn", "/tmp/portfolio-2.ozn"⟩,
        Tap.start 0) := by
  rw [beginConversion_quick (by decide +kernel) (by decide +kernel), newConversion_equipped]
  rfl

/-- The attempt succeeds unless the call is cancelled. -/
theorem attempt_equipped (cancelled : Bool) :
    ((conversionMachine cancelled).attempt .quick "/m" none equipped).2 =
      some (if cancelled then .error (.cancelled "b")
        else .ok ⟨"/tmp/portfolio-1.fzn", "/tmp/portfolio-2.ozn"⟩) := by
  have hended : (equipped.engaged.await 1000).ended? 1000 = some (.exited 0) := by decide +kernel
  rw [attempt_of_ok beginConversion_equipped, hended]
  cases cancelled with
  | true => rfl
  | false => rfl

end Host

/-- After a call that is cancelled the model is not converted. After one that is not, it is not
converted again, although it is another one by now and the call is cancelled. -/
theorem ConversionCall.quick_lawful :
    let abandoned : ConversionCall Host := ⟨.quick, Host.conversionMachine true, .equipped⟩
    let completed : ConversionCall Host := ⟨.quick, Host.conversionMachine false, .equipped⟩
    let late : ConversionCall Host := ⟨.quick, Host.conversionMachine true,
      Host.equipped.updateDisk (·.writeText "/m" "solve satisfy;")⟩
    let c : Conversion := ⟨"/tmp/portfolio-1.fzn", "/tmp/portfolio-2.ozn"⟩
    (abandoned.make "/m" none .empty).2 = (.empty, some (.error (.cancelled "b"))) ∧
      Answered "/m" none [abandoned, completed] "b" c ∧
      late.make "/m" none (ConversionCache.empty.after "/m" none [abandoned, completed]) =
        (late.state, ConversionCache.empty.after "/m" none [abandoned, completed],
          some (.ok c)) := by
  intro abandoned completed late c
  have habandoned : (abandoned.make "/m" none .empty).2.2 = some (.error (.cancelled "b")) := by
    rw [make_of_eq_none rfl]
    exact Host.attempt_equipped true
  have hne : ∀ c, (abandoned.make "/m" none .empty).2.2 ≠ some (.ok c) := by
    rw [habandoned]
    exact nofun
  obtain ⟨hsame, hanew⟩ := (answered_lawful "/m" none [] abandoned).2.2.1 hne
  have hanswered : Answered "/m" none [abandoned, completed] "b" c := by
    refine ⟨[abandoned], completed, [], rfl, rfl, ?_⟩
    have hempty : ConversionCache.empty.after "/m" none [abandoned] = .empty := hsame
    rw [hempty]
    exact (congrArg (·.2.2) (hanew completed rfl)).trans (Host.attempt_equipped false)
  exact ⟨Prod.ext hsame habandoned, hanswered,
    (answered_lawful "/m" none [abandoned, completed] late).1 c hanswered⟩

end SolverPortfolio

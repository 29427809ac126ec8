import SolverPortfolio.Proofs.Situation
import SolverPortfolio.Proofs.Transcript
import SolverPortfolio.Rehearsal.Stage

/-
# What a process is heard to say

A process is heard through a reader of its own, which turns lines into events. A
solution that has an objective value was announced before, by a line of its own.

Main definitions: `StreamReader.events`, `Parsed`.
Main statements: `StreamReader.filterMap_replies`, `StreamReader.bound_mem_of_solution`,
`Parsed.bound_mem`, `Stage.inbox_readLines`.
-/

namespace SolverPortfolio

namespace StreamReader

/-- What the lines that a process prints say. -/
def events (r : StreamReader) : List (List Char) → List StreamEvent
  | [] => []
  | line :: lines =>
    match r.feed line with
    | (r, .ok (some event)) => event :: r.events lines
    | (r, _) => r.events lines

/-- The events are what is heard from the lines, but for complaints. -/
theorem filterMap_replies (r : StreamReader) (lines : List (List Char)) :
    (r.replies lines).filterMap (·.toOption) = r.events lines := by
  induction lines generalizing r with
  | nil => rfl
  | cons line lines ih =>
    rw [replies, List.filterMap_append, ih, events]
    obtain ⟨sense, hsense⟩ := exists_sense r.tracked line
    rw [hsense r rfl]
    cases sense <;> rfl

/-- A line ends a solution, announces an objective value, or leaves the last value announced as it
is. -/
theorem feed_cases (r : StreamReader) (line : List Char) :
    (∃ text, (r.feed line).2 = .ok (some (.solution ⟨text, r.objective⟩)) ∧
      (r.feed line).1.objective = none) ∨
    (∃ v, (r.feed line).2 = .ok (some (.bound v)) ∧ (r.feed line).1.objective = some v) ∨
    ((∀ x, (r.feed line).2 ≠ .ok (some (.solution x))) ∧
      (r.feed line).1.objective = r.objective) := by
  obtain ⟨sense, hsense⟩ := exists_sense r.tracked line
  rw [hsense r rfl]
  cases sense with
  | ends => exact Or.inl ⟨_, rfl, rfl⟩
  | announces v => exact Or.inr (Or.inl ⟨v, rfl, rfl⟩)
  | closes status => exact Or.inr (Or.inr ⟨fun x => nofun, rfl⟩)
  | complains e => exact Or.inr (Or.inr ⟨fun x => nofun, rfl⟩)
  | adds text => exact Or.inr (Or.inr ⟨fun x => nofun, rfl⟩)

/-- The objective value of a solution was the last one announced before. -/
theorem bound_mem_of_solution {r : StreamReader} {lines : List (List Char)}
    {said : List StreamEvent} {x : Solution} {v : Objective}
    (h : r.events lines = said ++ [.solution x]) (hv : x.objective = some v) :
    r.objective = some v ∨ .bound v ∈ said := by
  -- The induction is on the lines; a bound is either still kept by the reader or was said already.
  induction lines generalizing r said with
  | nil => simp [events] at h
  | cons line lines ih =>
    rw [events] at h
    have hcases := r.feed_cases line
    generalize r.feed line = fed at h hcases
    obtain ⟨r', out⟩ := fed
    -- Once the first event is taken off, the rest was said after it.
    have hrest {event : StreamEvent} (h : event :: r'.events lines = said ++ [.solution x]) :
        event = .solution x ∨ ∃ said', said = event :: said' ∧
          (r'.objective = some v ∨ .bound v ∈ said') := by
      cases said with
      | nil => exact Or.inl (List.cons.inj h).1
      | cons first said' =>
        obtain ⟨rfl, hlines⟩ := List.cons.inj h
        exact Or.inr ⟨said', rfl, ih hlines⟩
    rcases hcases with ⟨text, rfl, hnone⟩ | ⟨u, rfl, hu⟩ | ⟨hfeed, hsame⟩
    · rcases hrest h with heq | ⟨said', rfl, hobj | hmem⟩
      · cases heq
        exact Or.inl hv
      · cases hnone.symm.trans hobj
      · exact Or.inr (List.mem_cons_of_mem _ hmem)
    · rcases hrest h with heq | ⟨said', rfl, hobj | hmem⟩
      · cases heq
      · cases hu.symm.trans hobj
        exact Or.inr List.mem_cons_self
      · exact Or.inr (List.mem_cons_of_mem _ hmem)
    · rw [← show r'.objective = r.objective from hsame]
      match out with
      | .ok (some event) =>
        rcases hrest h with rfl | ⟨said', rfl, hobj | hmem⟩
        · exact absurd rfl (hfeed x)
        · exact Or.inl hobj
        · exact Or.inr (List.mem_cons_of_mem _ hmem)
      | .ok none => exact ih h
      | .error e => exact ih h

end StreamReader

/-! ## The discipline of readers -/

/-- What a reader for a tracked variable hears, whatever lines are printed. -/
def Parsed (tracked : String) : Discipline := fun _ said =>
  ∃ lines, (StreamReader.start tracked).events lines = said

/-- The objective value of a solution was announced before. -/
theorem Parsed.bound_mem {tracked : String} {injected : Option Objective}
    {said : List StreamEvent} {x : Solution} {v : Objective}
    (h : Parsed tracked injected (said ++ [.solution x])) (hv : x.objective = some v) :
    .bound v ∈ said := by
  obtain ⟨lines, hlines⟩ := h
  rcases StreamReader.bound_mem_of_solution hlines hv with hstart | hmem
  · cases hstart
  · exact hmem

/-- The lines read from a process are sent as the messages of what they say, in their order. Lines
that cannot be read say nothing. -/
theorem Stage.inbox_readLines (s : Stage) (request : LaunchRequest) (reader : StreamReader)
    (lines : List ReadLine) :
    (s.readLines request reader lines).1.inbox = s.inbox ++
      (reader.events (lines.filterMap fun line => line.toOption.map (·.toList))).map
        (.output request.worker request.generation) := by
  induction lines generalizing s reader with
  | nil => simp [readLines, StreamReader.events]
  | cons line lines ih =>
    match line with
    | .error fault =>
      rw [readLines, ih]
      rfl
    | .ok line =>
      simp only [readLines, List.filterMap_cons, Except.toOption, Option.map_some,
        StreamReader.events]
      generalize reader.feed line.toList = fed
      obtain ⟨reader', out⟩ := fed
      match out with
      | .ok (some event) =>
        rw [ih]
        simp [send, Except.toOption]
      | .ok none =>
        rw [ih]
        rfl
      | .error e =>
        rw [ih]
        rfl

end SolverPortfolio

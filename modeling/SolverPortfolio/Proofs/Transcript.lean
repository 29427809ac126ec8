import SolverPortfolio.SolverStream

/-
# What is read from the lines of a solver

Line by line a reader answers with an event, a complaint, or nothing. Solutions that are printed
in blocks, each with at most one objective value, are read back block by block: a block leaves
the reader as it was found.

A line that closes a solution empties the reader. A line that closes the search drops the
assignment alone: an objective value announced before it stays, and is taken by the next
solution unless a later value replaces it. So the assignment of a solution depends on nothing
before the last closing line, whereas its objective value may.

Main definitions: `StreamReader.replies`, `StreamReader.after`, `StreamReader.Reads`,
`SolutionBlock`, `StreamReader.LineSense`, `StreamReader.Closed`, `StreamReader.pending`.
Main statements: `StreamReader.Reads.append`, `StreamReader.replies_blocks`,
`StreamReader.after_closed`, `StreamReader.solution_after_closed`.
-/

namespace SolverPortfolio

/-! ## Closing lines -/

namespace SearchStatus

/-- A status is read from its line. -/
@[simp] theorem ofLine?_line (status : SearchStatus) :
    ofLine? status.line.toList = some status := by
  cases status <;> decide

/-- Other lines state no status. -/
theorem ofLine?_eq_none {line : List Char}
    (h : ∀ status : SearchStatus, line ≠ status.line.toList) : ofLine? line = none :=
  List.find?_eq_none.mpr fun status _ heq => h status (of_decide_eq_true heq).symm

/-- No line for a status ends in white space. -/
theorem trimEnd_line (status : SearchStatus) :
    Text.trimEnd status.line.toList = status.line.toList := by
  cases status <;> decide

/-- No line for a status ends a solution. -/
theorem line_ne_terminator (status : SearchStatus) :
    status.line.toList ≠ solutionTerminator.toList := by
  cases status <;> decide

/-- A line with a space in it closes nothing. -/
theorem ofLine?_of_mem_space {line : List Char} (h : ' ' ∈ line) :
    line ≠ solutionTerminator.toList ∧ ofLine? line = none := by
  have hspace : ∀ status : SearchStatus, ' ' ∉ status.line.toList := by
    intro status
    cases status <;> decide
  exact ⟨fun heq => absurd (heq ▸ h) (by decide),
    ofLine?_eq_none fun status heq => hspace status (heq ▸ h)⟩

end SearchStatus

namespace StreamReader

/-! ## Reading line by line -/

/-- What is heard from the answer to a line: an event, a complaint, or nothing. -/
def reply? : Except BadObjective (Option StreamEvent) → Option (Except BadObjective StreamEvent)
  | .ok none => none
  | .ok (some event) => some (.ok event)
  | .error e => some (.error e)

/-- What is heard from lines, in their order. -/
def replies (r : StreamReader) : List (List Char) → List (Except BadObjective StreamEvent)
  | [] => []
  | line :: lines => (reply? (r.feed line).2).toList ++ (r.feed line).1.replies lines

/-- The reader after lines. -/
def after (r : StreamReader) (lines : List (List Char)) : StreamReader :=
  lines.foldl (fun r line => (r.feed line).1) r

/-- What a reader says to lines, and the reader it becomes. -/
structure Reads (r : StreamReader) (lines : List (List Char))
    (said : List (Except BadObjective StreamEvent)) (r' : StreamReader) : Prop where
  replies : r.replies lines = said
  after : r.after lines = r'

section

variable {r r' r'' : StreamReader} {line : List Char} {lines more : List (List Char)}
  {said said' : List (Except BadObjective StreamEvent)}

@[simp] theorem after_append : r.after (lines ++ more) = (r.after lines).after more :=
  List.foldl_append

@[simp] theorem replies_append :
    r.replies (lines ++ more) = r.replies lines ++ (r.after lines).replies more := by
  induction lines generalizing r with
  | nil => rfl
  | cons line lines ih =>
    rw [List.cons_append, replies, ih, replies, List.append_assoc]
    rfl

theorem Reads.nil : Reads r [] [] r := ⟨rfl, rfl⟩

/-- Lines may be read in two parts. -/
theorem Reads.append (h : Reads r lines said r') (h' : Reads r' more said' r'') :
    Reads r (lines ++ more) (said ++ said') r'' :=
  ⟨by rw [replies_append, h.replies, h.after, h'.replies], by rw [after_append, h.after, h'.after]⟩

/-- A single line is answered at once. -/
theorem Reads.singleton {answer : Except BadObjective (Option StreamEvent)}
    (h : r.feed line = (r', answer)) : Reads r [line] (reply? answer).toList r' := by
  refine ⟨?_, ?_⟩
  · rw [StreamReader.replies, h, StreamReader.replies, List.append_nil]
  · rw [StreamReader.after, List.foldl_cons, h, List.foldl_nil]

end

/-! ## The lines of a solution -/

/-- A line that is kept as part of a solution. -/
structure IsAssignment (tracked : String) (line : List Char) : Prop where
  noBlankEnd : ∀ c ∈ line.getLast?, Text.isBlank c = false
  ne_terminator : line ≠ solutionTerminator.toList
  ne_status : ∀ status : SearchStatus, line ≠ status.line.toList
  ne_announcement : ¬ tracked.toList ++ " = ".toList <+: line

/-- The line that announces an objective value. -/
def announcement (tracked : String) (v : Objective) : List Char :=
  tracked.toList ++ " = ".toList ++ (toString v).toList ++ [';']

/-- A value that is a signed 64-bit integer. -/
def FitsWord (v : Objective) : Prop := -(Nat.pow 2 63 : Int) ≤ v ∧ v < Nat.pow 2 63

/-- Lines as they are kept, each with a line break. -/
def keep (lines : List (List Char)) : List Char := lines.flatMap (· ++ ['\n'])

section

variable {r : StreamReader} {tracked : String}

/-- A line of an assignment is kept and says nothing. -/
theorem feed_assignment {line : List Char} (hr : r.tracked = tracked.toList ++ " = ".toList)
    (h : IsAssignment tracked line) :
    r.feed line = ({ r with text := r.text ++ line ++ ['\n'] }, .ok none) := by
  have htrim : Text.trimEnd line = line := Text.dropEnd_eq_self h.noBlankEnd
  have hstrip : Text.stripStart? r.tracked line = none :=
    Text.stripStart?_eq_none (hr ▸ h.ne_announcement)
  simp [feed, htrim, h.ne_terminator, SearchStatus.ofLine?_eq_none h.ne_status, hstrip]

/-- Lines of an assignment are kept one after another. -/
theorem reads_assignment {lines : List (List Char)}
    (hr : r.tracked = tracked.toList ++ " = ".toList)
    (h : ∀ line ∈ lines, IsAssignment tracked line) :
    Reads r lines [] { r with text := r.text ++ keep lines } := by
  induction lines generalizing r with
  | nil => simpa [keep] using Reads.nil (r := r)
  | cons line lines ih =>
    rw [List.forall_mem_cons] at h
    have hrest := ih (r := { r with text := r.text ++ line ++ ['\n'] }) hr h.2
    simpa [keep, reply?] using (Reads.singleton (feed_assignment hr h.1)).append hrest

/-- The text of a number has no white space, nor a semicolon. -/
theorem isBlank_of_mem_toString {v : Objective} {c : Char} (h : c ∈ (toString v).toList) :
    Text.isBlank c = false ∧ c ≠ ';' := by
  rcases Text.eq_or_isDigit_of_mem_toString h with rfl | hdigit
  · decide
  · obtain ⟨hlow, hhigh⟩ := Bool.and_eq_true_iff.mp hdigit
    have hlow : 48 ≤ c.toNat := of_decide_eq_true hlow
    have hhigh : c.toNat ≤ 57 := of_decide_eq_true hhigh
    refine ⟨?_, fun hc => absurd (hc ▸ hhigh) (by decide)⟩
    simp [Text.isBlank]
    omega

/-- The value announced is read, whatever 64-bit integer it is. -/
theorem objectiveOfLine_toString {v : Objective} (hv : FitsWord v) (line : List Char) :
    objectiveOfLine line ((toString v).toList ++ [';']) = .ok v := by
  have hread : Text.readInt? 64 (toString v).toList = some v := Text.readInt?_toString hv.1 hv.2
  have hdrop : Text.dropEnd (· = ';') ((toString v).toList ++ [';']) = (toString v).toList := by
    rw [Text.dropEnd_append_singleton, if_pos (by decide)]
    exact Text.dropEnd_eq_self fun c hc =>
      decide_eq_false (isBlank_of_mem_toString (List.mem_of_getLast? hc)).2
  have htrim : Text.trim (toString v).toList = (toString v).toList :=
    Text.trim_eq_self fun c hc => (isBlank_of_mem_toString hc).1
  simp only [objectiveOfLine, readObjective?, hdrop, htrim, hread]

/-- An announcement is heard, and its value is kept. -/
theorem feed_announcement {v : Objective} (hr : r.tracked = tracked.toList ++ " = ".toList)
    (hv : FitsWord v) :
    r.feed (announcement tracked v) = ({ r with objective := some v }, .ok (some (.bound v))) := by
  have htrim : Text.trimEnd (announcement tracked v) = announcement tracked v := by
    rw [announcement, Text.trimEnd, Text.dropEnd_append_singleton, if_neg (by decide)]
  -- The spaces around the equals sign tell an announcement from every line that closes.
  have hspace : ' ' ∈ announcement tracked v := by simp [announcement]
  obtain ⟨hterminator, hstatus⟩ := SearchStatus.ofLine?_of_mem_space hspace
  have hstrip : Text.stripStart? r.tracked (announcement tracked v) =
      some ((toString v).toList ++ [';']) := by
    rw [announcement, hr, List.append_assoc, Text.stripStart?_append]
  rw [feed, htrim]
  simp only [hterminator, if_false, hstatus, hstrip, objectiveOfLine_toString hv]

/-- A closing line for a status drops the assignment. -/
theorem feed_status (r : StreamReader) (status : SearchStatus) :
    r.feed status.line.toList = ({ r with text := [] }, .ok (some (.completed status))) := by
  simp [feed, status.trimEnd_line, status.line_ne_terminator]

end

end StreamReader

/-! ## Blocks -/

/-- A solution as it is printed: the lines of an assignment, an objective value announced
anywhere among them or not at all, and the line that ends the solution. -/
structure SolutionBlock (tracked : String) where
  above : List (List Char)
  value : Option Objective
  below : List (List Char)
  assignment : ∀ line ∈ above ++ below, StreamReader.IsAssignment tracked line
  range : ∀ v ∈ value, StreamReader.FitsWord v

namespace SolutionBlock

variable {tracked : String}

/-- The lines of a block. -/
def lines (b : SolutionBlock tracked) : List (List Char) :=
  b.above ++ (b.value.map (StreamReader.announcement tracked)).toList ++ b.below ++
    [solutionTerminator.toList]

/-- The solution of a block. -/
def solution (b : SolutionBlock tracked) : Solution :=
  ⟨String.ofList (StreamReader.keep (b.above ++ b.below)), b.value⟩

/-- What is to be heard of a block. -/
def events (b : SolutionBlock tracked) : List StreamEvent :=
  (b.value.map .bound).toList ++ [.solution b.solution]

end SolutionBlock

namespace StreamReader

section

variable {tracked : String}

/-- If there is an announcement, then it is heard. -/
theorem reads_announcement {r : StreamReader} {value : Option Objective}
    (hr : r.tracked = tracked.toList ++ " = ".toList) (hvalue : ∀ v ∈ value, FitsWord v) :
    Reads r (value.map (announcement tracked)).toList ((value.map .bound).toList.map .ok)
      { r with objective := value.or r.objective } := by
  cases value with
  | none => exact Reads.nil
  | some v => exact Reads.singleton (feed_announcement hr (hvalue v rfl))

/-- A block is read as its solution, and leaves the reader as it was at the start. -/
theorem reads_block (b : SolutionBlock tracked) :
    Reads (start tracked) b.lines (b.events.map .ok) (start tracked) := by
  have habove := reads_assignment (r := start tracked) rfl fun line hline =>
    b.assignment line (List.mem_append_left _ hline)
  have hannounced := habove.append (reads_announcement rfl b.range)
  have hbelow := hannounced.append (reads_assignment rfl fun line hline =>
    b.assignment line (List.mem_append_right _ hline))
  have hblock := hbelow.append (Reads.singleton (feed_terminator _))
  refine ⟨hblock.replies.trans ?_, hblock.after.trans rfl⟩
  simp [SolutionBlock.events, SolutionBlock.solution, keep, reply?, start]

/-- Blocks are read one after another. -/
theorem reads_blocks (blocks : List (SolutionBlock tracked)) :
    Reads (start tracked) (blocks.flatMap SolutionBlock.lines)
      ((blocks.flatMap SolutionBlock.events).map .ok) (start tracked) := by
  -- Between any two blocks nothing is kept.
  induction blocks with
  | nil => exact Reads.nil
  | cons b blocks ih =>
    rw [List.flatMap_cons, List.flatMap_cons, List.map_append]
    exact (reads_block b).append ih

/-- Solutions printed in blocks are read back, and so is the status that may follow them. -/
theorem replies_blocks (blocks : List (SolutionBlock tracked)) (status : Option SearchStatus) :
    (start tracked).replies (blocks.flatMap SolutionBlock.lines ++
        (status.map (·.line.toList)).toList) =
      (blocks.flatMap SolutionBlock.events ++
        (status.map StreamEvent.completed).toList).map .ok := by
  rw [replies_append, (reads_blocks blocks).replies, (reads_blocks blocks).after, List.map_append]
  cases status with
  | none => rfl
  | some status =>
    exact congrArg _ (Reads.singleton (feed_status (start tracked) status)).replies

end

/-- A block in which the least 64-bit integer is announced between two lines of the assignment. -/
def leastBlock : SolutionBlock "cost" where
  above := ["x = 1;".toList]
  value := some (-9223372036854775808)
  below := ["y = [".toList]
  assignment := by
    refine List.forall_mem_cons.mpr ⟨?_, List.forall_mem_singleton.mpr ?_⟩
    · refine ⟨fun c hc => ?_, by decide, fun status => by cases status <;> decide, by decide⟩
      cases hc
      rfl
    · refine ⟨fun c hc => ?_, by decide, fun status => by cases status <;> decide, by decide⟩
      cases hc
      rfl
  range := by
    intro v hv
    cases hv
    exact ⟨by decide, by decide⟩

example : leastBlock.lines.map String.ofList =
    ["x = 1;", "cost = -9223372036854775808;", "y = [", "----------"] := by decide +kernel

/-! ## What crosses a closing line -/

/-- What a line means, whoever reads it. -/
inductive LineSense where
  | ends
  | closes (status : SearchStatus)
  | announces (v : Objective)
  | complains (e : BadObjective)
  | adds (text : List Char)

/-- What a reader makes of the meaning of a line. -/
def LineSense.act (r : StreamReader) :
    LineSense → StreamReader × Except BadObjective (Option StreamEvent)
  | ends => ({ r with text := [], objective := none },
      .ok (some (.solution ⟨String.ofList r.text, r.objective⟩)))
  | closes status => ({ r with text := [] }, .ok (some (.completed status)))
  | announces v => ({ r with objective := some v }, .ok (some (.bound v)))
  | complains e => (r, .error e)
  | adds text => ({ r with text := r.text ++ text }, .ok none)

/-- A line means the same to all readers for one variable. -/
theorem exists_sense (tracked line : List Char) :
    ∃ sense : LineSense, ∀ r : StreamReader, r.tracked = tracked → r.feed line = sense.act r := by
  by_cases hends : Text.trimEnd line = solutionTerminator.toList
  · exact ⟨.ends, fun r _ => by simp [feed, hends, LineSense.act]⟩
  cases hcloses : SearchStatus.ofLine? (Text.trimEnd line) with
  | some status => exact ⟨.closes status, fun r _ => by simp [feed, hends, hcloses, LineSense.act]⟩
  | none =>
    cases hstrip : Text.stripStart? tracked (Text.trimEnd line) with
    | none =>
      refine ⟨.adds (Text.trimEnd line ++ ['\n']), fun r hr => ?_⟩
      simp [feed, hends, hcloses, hr, hstrip, LineSense.act]
    | some value =>
      cases hvalue : objectiveOfLine (Text.trimEnd line) value with
      | ok v =>
        exact ⟨.announces v, fun r hr => by
          simp [feed, hends, hcloses, hr, hstrip, hvalue, LineSense.act]⟩
      | error e =>
        exact ⟨.complains e, fun r hr => by
          simp [feed, hends, hcloses, hr, hstrip, hvalue, LineSense.act]⟩

/-- The objective value that waits for a solution, after one more thing was heard. -/
def carry (waiting : Option Objective) : Except BadObjective StreamEvent → Option Objective
  | .ok (.solution _) => none
  | .ok (.bound v) => some v
  | .ok (.completed _) => waiting
  | .error _ => waiting

/-- The objective value that waits for a solution, after all that was heard. -/
def pending (said : List (Except BadObjective StreamEvent)) : Option Objective :=
  said.foldl carry none

/-- Does an event close a solution, or the search? -/
def closes : StreamEvent → Bool
  | .solution _ => true
  | .completed _ => true
  | .bound _ => false

/-- The last line of a history closed a solution, or the search. -/
def Closed (tracked : String) (history : List (List Char)) : Prop :=
  ∃ earlier last event, history = earlier ++ [last] ∧
    (((start tracked).after earlier).feed last).2 = .ok (some event) ∧ closes event = true

section

variable {r : StreamReader} {tracked : String} {line : List Char} {lines : List (List Char)}

/-- The value that waits is told by what was heard. -/
theorem objective_after :
    (r.after lines).objective = (r.replies lines).foldl carry r.objective := by
  induction lines generalizing r with
  | nil => rfl
  | cons line lines ih =>
    obtain ⟨sense, hsense⟩ := exists_sense r.tracked line
    rw [replies, List.foldl_append, ← List.singleton_append, after_append, ih, after,
      List.foldl_cons, List.foldl_nil, hsense r rfl]
    cases sense <;> rfl

/-- Readers keep to their variable. -/
theorem tracked_after : (r.after lines).tracked = r.tracked := by
  induction lines generalizing r with
  | nil => rfl
  | cons line lines ih =>
    obtain ⟨sense, hsense⟩ := exists_sense r.tracked line
    rw [← List.singleton_append, after_append, ih, after, List.foldl_cons, List.foldl_nil,
      hsense r rfl]
    cases sense <;> rfl

/-- A closing line drops the assignment. -/
theorem text_feed_of_closes {event : StreamEvent} (h : (r.feed line).2 = .ok (some event))
    (hcloses : closes event = true) : (r.feed line).1.text = [] := by
  obtain ⟨sense, hsense⟩ := exists_sense r.tracked line
  rw [hsense r rfl] at h ⊢
  cases sense with
  | ends => rfl
  | closes status => rfl
  | announces v => cases h; cases hcloses
  | complains e => cases h
  | adds text => cases h

/-- After a closing line nothing is left but a value that waits. -/
theorem after_closed {history : List (List Char)} (h : Closed tracked history) :
    (start tracked).after history =
      { start tracked with objective := pending ((start tracked).replies history) } := by
  have hobjective : ((start tracked).after history).objective =
      pending ((start tracked).replies history) := objective_after
  have htracked : ((start tracked).after history).tracked = (start tracked).tracked :=
    tracked_after
  have htext : ((start tracked).after history).text = [] := by
    obtain ⟨earlier, last, event, rfl, hevent, hcloses⟩ := h
    rw [after_append, after, List.foldl_cons, List.foldl_nil]
    exact text_feed_of_closes hevent hcloses
  calc (start tracked).after history
      = ⟨((start tracked).after history).tracked, ((start tracked).after history).text,
          ((start tracked).after history).objective⟩ := rfl
    _ = { start tracked with objective := pending ((start tracked).replies history) } := by
      rw [htracked, htext, hobjective]
      rfl

/-- A solution takes the value that waits, so that the reader is as it was at the start. -/
theorem after_solution {earlier : List (List Char)} {x : Solution}
    (h : (((start tracked).after earlier).feed line).2 = .ok (some (.solution x))) :
    (start tracked).after (earlier ++ [line]) = start tracked := by
  have hpending : pending ((start tracked).replies (earlier ++ [line])) = none := by
    rw [replies_append, replies, h, pending, List.foldl_append]
    rfl
  rw [after_closed ⟨earlier, line, _, rfl, h, rfl⟩, hpending]
  rfl

/-- A line that ends a solution hands out the value that waits. -/
theorem feed_of_solution {x : Solution} (h : (r.feed line).2 = .ok (some (.solution x)))
    (waiting : Option Objective) : x.objective = r.objective ∧
      ({ r with objective := waiting }.feed line).2 =
        .ok (some (.solution { x with objective := waiting })) := by
  obtain ⟨sense, hsense⟩ := exists_sense r.tracked line
  rw [hsense r rfl] at h
  rw [hsense { r with objective := waiting } rfl]
  cases sense with
  | ends => cases h; exact ⟨rfl, rfl⟩
  | closes status => cases h
  | announces v => cases h
  | complains e => cases h
  | adds text => cases h

/-- Until a line closes something, a value that waits changes nothing of what is heard. -/
theorem reads_waiting (h : ∀ event, .ok event ∈ r.replies lines → closes event = false)
    (waiting : Option Objective) :
    Reads { r with objective := waiting } lines (r.replies lines)
      { r.after lines with objective := (r.replies lines).foldl carry waiting } := by
  -- The induction is on the lines; a line that announces a value makes both readers the same.
  induction lines generalizing r waiting with
  | nil => exact Reads.nil
  | cons line lines ih =>
    obtain ⟨sense, hsense⟩ := exists_sense r.tracked line
    have hfeed : { r with objective := waiting }.feed line =
        ({ (r.feed line).1 with
            objective := (reply? (r.feed line).2).toList.foldl carry waiting },
          (r.feed line).2) := by
      have hquiet : ∀ event, .ok event ∈ (reply? (r.feed line).2).toList → closes event = false :=
        fun event hevent => h event (List.mem_append_left _ hevent)
      rw [hsense { r with objective := waiting } rfl, hsense r rfl]
      rw [hsense r rfl] at hquiet
      cases sense with
      | ends => cases hquiet _ List.mem_cons_self
      | closes status => cases hquiet _ List.mem_cons_self
      | announces v => rfl
      | complains e => rfl
      | adds text => rfl
    have hrest := ih (fun event hevent => h event (List.mem_append_right _ hevent))
      ((reply? (r.feed line).2).toList.foldl carry waiting)
    rw [replies, List.foldl_append]
    exact (Reads.singleton hfeed).append hrest

end

/-- Without closing events a waiting value counts, unless another one is announced. -/
theorem foldl_carry_eq_iff {said : List (Except BadObjective StreamEvent)}
    (h : ∀ event, .ok event ∈ said → closes event = false) {waiting waiting' : Option Objective} :
    said.foldl carry waiting' = said.foldl carry waiting ↔
      (∃ v, .ok (.bound v) ∈ said) ∨ waiting' = waiting := by
  induction said generalizing waiting waiting' with
  | nil => simp
  | cons reply said ih =>
    have hrest : ∀ event, .ok event ∈ said → closes event = false := fun event hevent =>
      h event (List.mem_cons_of_mem _ hevent)
    rw [List.foldl_cons, List.foldl_cons]
    cases reply with
    | error e => simpa [carry] using ih hrest
    | ok event =>
      cases event with
      | solution x => cases h _ List.mem_cons_self
      | completed status => cases h _ List.mem_cons_self
      | bound v => simp [carry]

/-- The assignment of a solution depends on nothing before the last closing line. Its objective
value does not depend on it either if one was announced since; otherwise it is the one that was
waiting at that line. -/
theorem solution_after_closed {tracked : String} {history history' between : List (List Char)}
    {line : List Char} {x : Solution} (h : Closed tracked history) (h' : Closed tracked history')
    (hquiet : ∀ event, .ok event ∈ ((start tracked).after history).replies between →
      closes event = false)
    (hx : (((start tracked).after (history ++ between)).feed line).2 = .ok (some (.solution x))) :
    ∃ x', (((start tracked).after (history' ++ between)).feed line).2 = .ok (some (.solution x')) ∧
      x'.assignment = x.assignment ∧
      (x' = x ↔ (∃ v, .ok (.bound v) ∈ ((start tracked).after history).replies between) ∨
        pending ((start tracked).replies history') =
          pending ((start tracked).replies history)) := by
  have hother : { (start tracked).after history with
      objective := pending ((start tracked).replies history') } =
        (start tracked).after history' := by rw [after_closed h, after_closed h']
  have hreads := reads_waiting hquiet (pending ((start tracked).replies history'))
  rw [hother] at hreads
  rw [after_append] at hx ⊢
  rw [hreads.after]
  obtain ⟨hobjective, hfeed⟩ := feed_of_solution hx
    ((((start tracked).after history).replies between).foldl carry
      (pending ((start tracked).replies history')))
  rw [objective_after, after_closed h] at hobjective
  refine ⟨_, hfeed, rfl, ?_⟩
  rw [← foldl_carry_eq_iff hquiet, after_closed h, ← hobjective]
  obtain ⟨assignment, objective⟩ := x
  simp

/-- A search that is closed after a value was announced. -/
def searchedCost : List (List Char) := ["cost = 5;".toList, "==========".toList]

/-- A solution without a value. -/
def solvedCost : List (List Char) := ["x = 1;".toList, "----------".toList]

/-- The lines of a solution whose value is announced. -/
def announcedCost : List (List Char) := ["y = 2;".toList, "cost = 7;".toList]

/-- A solution whose value is announced does not depend on what was closed before it. -/
theorem announced_after_closed : Closed "cost" searchedCost ∧ Closed "cost" solvedCost ∧
    (((start "cost").after (searchedCost ++ announcedCost)).feed solutionTerminator.toList).2 =
      .ok (some (.solution ⟨"y = 2;\n", some 7⟩)) ∧
    ∃ x', (((start "cost").after (solvedCost ++ announcedCost)).feed solutionTerminator.toList).2 =
        .ok (some (.solution x')) ∧ x' = ⟨"y = 2;\n", some 7⟩ := by
  have h : Closed "cost" searchedCost :=
    ⟨["cost = 5;".toList], "==========".toList, .completed .optimal, rfl, rfl, rfl⟩
  have h' : Closed "cost" solvedCost :=
    ⟨["x = 1;".toList], "----------".toList, .solution ⟨"x = 1;\n", none⟩, rfl, rfl, rfl⟩
  have hreplies :
      ((start "cost").after searchedCost).replies announcedCost = [.ok (.bound 7)] := rfl
  have hquiet : ∀ event, .ok event ∈ ((start "cost").after searchedCost).replies announcedCost →
      closes event = false := by
    intro event hevent
    rw [hreplies, List.mem_singleton] at hevent
    cases hevent
    rfl
  have hx : (((start "cost").after (searchedCost ++ announcedCost)).feed
      solutionTerminator.toList).2 = .ok (some (.solution ⟨"y = 2;\n", some 7⟩)) := rfl
  obtain ⟨x', hx', -, hiff⟩ := solution_after_closed h h' hquiet hx
  exact ⟨h, h', hx, x', hx', hiff.mpr (.inl ⟨7, hreplies ▸ List.mem_cons_self⟩)⟩

/-- A value that was announced before a search was closed is that of the next solution, which has
none if the line that announced it is left out. -/
theorem value_crosses_completion :
    Closed "_objective" ["_objective = 5;".toList, "==========".toList] ∧
    Closed "_objective" ["==========".toList] ∧
    (((start "_objective").after ["_objective = 5;".toList, "==========".toList]).feed
      "----------".toList).2 = .ok (some (.solution ⟨"", some 5⟩)) ∧
    (((start "_objective").after ["==========".toList]).feed "----------".toList).2 =
      .ok (some (.solution ⟨"", none⟩)) :=
  ⟨⟨["_objective = 5;".toList], "==========".toList, .completed .optimal, rfl, rfl, rfl⟩,
    ⟨[], "==========".toList, .completed .optimal, rfl, rfl, rfl⟩, rfl, rfl⟩

end StreamReader

end SolverPortfolio

/-
# Texts as lists of characters

White space, trimming, lines, cutting at a character and replacing one text by
another, for texts given as `List Char`.

Main definitions: `isBlank`, `trim`, `lines`, `splitOn`, `cutAt`, `replaceAll`.
-/

namespace SolverPortfolio.Text

/-! ## White space -/

/-- The characters of the Unicode property `White_Space`. -/
def isBlank (c : Char) : Bool :=
  let n := c.toNat
  (9 ≤ n && n ≤ 13) || n == 0x20 || n == 0x85 || n == 0xA0 || n == 0x1680 ||
    (0x2000 ≤ n && n ≤ 0x200A) || n == 0x2028 || n == 0x2029 || n == 0x202F ||
    n == 0x205F || n == 0x3000

/-- The empty text is blank. -/
theorem isBlank_of_mem_nil : ∀ c ∈ ([] : List Char), isBlank c = true := List.forall_mem_nil _

/-- Drops the longest beginning whose characters satisfy `p`, and keeps all else. -/
def dropStart (p : Char → Bool) (s : List Char) : List Char :=
  s.dropWhile p

/-- Drops the longest ending whose characters satisfy `p`, and keeps all else. -/
def dropEnd (p : Char → Bool) (s : List Char) : List Char :=
  (s.reverse.dropWhile p).reverse

/-- Nothing is dropped before a first character that is to be kept. -/
theorem dropStart_eq_self {p : Char → Bool} {s : List Char} (h : ∀ c ∈ s.head?, p c = false) :
    dropStart p s = s := by
  cases s with
  | nil => rfl
  | cons c s =>
    rw [dropStart, List.dropWhile_cons, h c rfl]
    rfl

/-- Dropping at the end goes on before a character that is dropped, and stops behind any other. -/
@[simp] theorem dropEnd_append_singleton (p : Char → Bool) (s : List Char) (c : Char) :
    dropEnd p (s ++ [c]) = if p c then dropEnd p s else s ++ [c] := by
  rw [dropEnd, List.reverse_append, List.reverse_singleton, List.singleton_append,
    List.dropWhile_cons]
  split
  · rfl
  · rw [List.reverse_cons, List.reverse_reverse]

/-- Nothing is dropped behind a last character that is to be kept. -/
theorem dropEnd_eq_self {p : Char → Bool} {s : List Char} (h : ∀ c ∈ s.getLast?, p c = false) :
    dropEnd p s = s := by
  have hdrop := dropStart_eq_self (s := s.reverse) fun c hc => h c (List.head?_reverse ▸ hc)
  rw [dropStart] at hdrop
  rw [dropEnd, hdrop, List.reverse_reverse]

/-- An ending that is dropped may be left out at once. -/
theorem dropEnd_append {p : Char → Bool} {s after : List Char} (h : ∀ c ∈ after, p c = true) :
    dropEnd p (s ++ after) = dropEnd p s := by
  rw [dropEnd, List.reverse_append, List.dropWhile_append_of_pos, ← dropEnd]
  intro c hc
  exact h c (List.mem_reverse.mp hc)

/-- What is dropped at the start satisfies `p`. -/
theorem exists_eq_append_dropStart (p : Char → Bool) (s : List Char) :
    ∃ before, s = before ++ dropStart p s ∧ ∀ c ∈ before, p c = true :=
  ⟨s.takeWhile p, List.takeWhile_append_dropWhile.symm, List.all_eq_true.mp List.all_takeWhile⟩

/-- What is dropped at the end satisfies `p`. -/
theorem exists_eq_dropEnd_append (p : Char → Bool) (s : List Char) :
    ∃ after, s = dropEnd p s ++ after ∧ ∀ c ∈ after, p c = true := by
  obtain ⟨before, hs, hbefore⟩ := exists_eq_append_dropStart p s.reverse
  refine ⟨before.reverse, ?_, fun c hc => hbefore c (List.mem_reverse.mp hc)⟩
  rw [dropEnd, ← List.reverse_append, ← dropStart, ← hs, List.reverse_reverse]

/-- What is kept behind a dropped beginning starts with a character that is to be kept. -/
theorem of_mem_head?_dropStart {p : Char → Bool} {s : List Char} {c : Char}
    (h : c ∈ (dropStart p s).head?) : p c = false := by
  have hhead := List.head?_dropWhile_not p s
  rw [dropStart] at h
  rw [Option.mem_def.mp h] at hhead
  exact hhead

/-- What is kept before a dropped ending ends in a character that is to be kept. -/
theorem of_mem_getLast?_dropEnd {p : Char → Bool} {s : List Char} {c : Char}
    (h : c ∈ (dropEnd p s).getLast?) : p c = false := by
  rw [dropEnd, List.getLast?_reverse] at h
  exact of_mem_head?_dropStart h

/-- Drops white space at the start. -/
def trimStart (s : List Char) : List Char := dropStart isBlank s

/-- Drops white space at the end. -/
def trimEnd (s : List Char) : List Char := dropEnd isBlank s

/-- Drops white space at both ends. -/
def trim (s : List Char) : List Char := trimStart (trimEnd s)

/-- A text without white space stays as it is. -/
theorem trim_eq_self {s : List Char} (h : ∀ c ∈ s, isBlank c = false) : trim s = s := by
  rw [trim, trimEnd, dropEnd_eq_self fun c hc => h c (List.mem_of_getLast? hc), trimStart,
    dropStart_eq_self fun c hc => h c (List.mem_of_head? hc)]

/-- A text is what is left of it when it is trimmed, with white space around. -/
theorem exists_eq_append_trim (s : List Char) : ∃ before after, s = before ++ trim s ++ after ∧
    (∀ c ∈ before, isBlank c = true) ∧ ∀ c ∈ after, isBlank c = true := by
  obtain ⟨after, hs, hafter⟩ := exists_eq_dropEnd_append isBlank s
  obtain ⟨before, hstart, hbefore⟩ := exists_eq_append_dropStart isBlank (dropEnd isBlank s)
  refine ⟨before, after, ?_, hbefore, hafter⟩
  rw [trim, trimStart, trimEnd, ← hstart]
  exact hs

/-- A trimmed text does not start with white space. -/
theorem isBlank_of_mem_head?_trim {s : List Char} {c : Char} (h : c ∈ (trim s).head?) :
    isBlank c = false :=
  of_mem_head?_dropStart h

/-- A trimmed text does not end in white space. -/
theorem isBlank_of_mem_getLast?_trim {s : List Char} {c : Char} (h : c ∈ (trim s).getLast?) :
    isBlank c = false := by
  obtain ⟨before, hstart, -⟩ := exists_eq_append_dropStart isBlank (dropEnd isBlank s)
  refine of_mem_getLast?_dropEnd (s := s) ?_
  rw [hstart, List.getLast?_append, show (dropStart isBlank (dropEnd isBlank s)).getLast? = some c
    from h]
  rfl

/-- White space around a text is trimmed, and no more. -/
theorem trim_append_append {before s after : List Char} (hbefore : ∀ c ∈ before, isBlank c = true)
    (hafter : ∀ c ∈ after, isBlank c = true) (hne : s ≠ [])
    (hhead : ∀ c ∈ s.head?, isBlank c = false) (hlast : ∀ c ∈ s.getLast?, isBlank c = false) :
    trim (before ++ s ++ after) = s := by
  have hend : dropEnd isBlank (before ++ s) = before ++ s := by
    refine dropEnd_eq_self fun c hc => hlast c ?_
    rwa [List.getLast?_append, List.getLast?_eq_some_getLast hne, Option.some_or,
      ← List.getLast?_eq_some_getLast hne] at hc
  rw [trim, trimEnd, dropEnd_append hafter, hend, trimStart, dropStart,
    List.dropWhile_append_of_pos hbefore]
  exact dropStart_eq_self hhead

/-- Drops white space at both ends of a string. -/
def trimString (s : String) : String := String.ofList (trim s.toList)

/-- Is there nothing but white space? -/
def allBlank (s : List Char) : Bool := s.all isBlank

/-! ## Cutting -/

/-- The pieces between the occurrences of `sep`; there is always one more piece than `sep`s. -/
def splitOn (sep : Char) : List Char → List (List Char)
  | [] => [[]]
  | c :: rest =>
    if c = sep then [] :: splitOn sep rest
    else match splitOn sep rest with
      | [] => [[c]]
      | piece :: more => (c :: piece) :: more

/-- There is at least one piece. -/
theorem splitOn_ne_nil (sep : Char) (s : List Char) : splitOn sep s ≠ [] := by
  cases s with
  | nil => simp [splitOn]
  | cons c rest =>
    unfold splitOn
    split
    · simp
    · split <;> simp

/-- The text before and after the first `sep`, if there is one. -/
def cutAt (sep : Char) : List Char → Option (List Char × List Char)
  | [] => none
  | c :: rest =>
    if c = sep then some ([], rest)
    else (cutAt sep rest).map fun (before, after) => (c :: before, after)

/-- The text up to and with the last `sep`, and the text after it; the first part is empty when
there is no `sep`. -/
def cutAfterLast (sep : Char) (s : List Char) : List Char × List Char :=
  let tail := (s.reverse.takeWhile (· ≠ sep)).reverse
  (s.take (s.length - tail.length), tail)

/-- A text is cut behind its last `sep`. -/
theorem cutAfterLast_append {sep : Char} {front tail : List Char} (htail : sep ∉ tail)
    (hfront : ∀ c ∈ front.getLast?, c = sep) : cutAfterLast sep (front ++ tail) = (front, tail) := by
  have htake : (front ++ tail).reverse.takeWhile (· ≠ sep) = tail.reverse := by
    rw [List.reverse_append, List.takeWhile_append_of_pos]
    · cases hrev : front.reverse with
      | nil => rw [List.takeWhile_nil, List.append_nil]
      | cons c rest =>
        have hc : c = sep := hfront c (by rw [← List.head?_reverse, hrev]; rfl)
        rw [List.takeWhile_cons_of_neg (by simp [hc]), List.append_nil]
    · intro c hc
      exact decide_eq_true fun heq => htail (heq ▸ List.mem_reverse.mp hc)
  simp only [cutAfterLast, htake, List.reverse_reverse, List.length_append,
    Nat.add_sub_cancel, List.take_left]

/-- What a text is cut into behind its last `sep`: the first part is empty or ends in it, and it
does not occur in the second one. -/
theorem cutAfterLast_eq_iff {sep : Char} {s front tail : List Char} :
    cutAfterLast sep s = (front, tail) ↔
      s = front ++ tail ∧ sep ∉ tail ∧ ∀ c ∈ front.getLast?, c = sep := by
  constructor
  · intro h
    obtain ⟨rest, hs, hrest⟩ := exists_eq_dropEnd_append (· ≠ sep) s
    have hfree : sep ∉ rest := fun hmem => of_decide_eq_true (hrest sep hmem) rfl
    have hends : ∀ c ∈ (dropEnd (· ≠ sep) s).getLast?, c = sep :=
      fun c hc => Classical.not_not.mp (of_decide_eq_false (of_mem_getLast?_dropEnd hc))
    rw [hs, cutAfterLast_append hfree hends, Prod.mk.injEq] at h
    obtain ⟨rfl, rfl⟩ := h
    exact ⟨hs, hfree, hends⟩
  · rintro ⟨rfl, htail, hfront⟩
    exact cutAfterLast_append htail hfront

/-- An ending without `sep` stays behind the last one. -/
theorem cutAfterLast_append_of_not_mem {sep : Char} {tail : List Char} (h : sep ∉ tail)
    (s : List Char) :
    cutAfterLast sep (s ++ tail) = ((cutAfterLast sep s).1, (cutAfterLast sep s).2 ++ tail) := by
  obtain ⟨front, rest, hcut⟩ : ∃ front rest, cutAfterLast sep s = (front, rest) := ⟨_, _, rfl⟩
  obtain ⟨hs, hfree, hfront⟩ := cutAfterLast_eq_iff.mp hcut
  rw [hcut, cutAfterLast_eq_iff, ← List.append_assoc, ← hs, List.mem_append, not_or]
  exact ⟨rfl, ⟨hfree, h⟩, hfront⟩

/-- A character that occurs in a text occurs there for the last time. -/
theorem exists_last_of_mem {c : Char} {s : List Char} (h : c ∈ s) :
    ∃ front tail, s = front ++ [c] ++ tail ∧ c ∉ tail := by
  obtain ⟨tail, front, hs, htail⟩ := List.eq_append_cons_of_mem (List.mem_reverse.mpr h)
  refine ⟨front.reverse, tail.reverse, ?_, fun hc => htail (List.mem_reverse.mp hc)⟩
  rw [← List.reverse_reverse s, hs, List.reverse_append, List.reverse_cons]

/-- The maximal runs without white space. -/
def words (s : List Char) : List (List Char) :=
  go s []
where
  /-- Reads on with the word `current` (reversed) begun. -/
  go : List Char → List Char → List (List Char)
    | [], [] => []
    | [], current => [current.reverse]
    | c :: rest, current =>
      if isBlank c then
        match current with
        | [] => go rest []
        | _ => current.reverse :: go rest []
      else go rest (c :: current)

/-- At a blank a word that was begun is complete. -/
theorem words_go_of_blank {c : Char} (hc : isBlank c = true) (s current : List Char) :
    words.go (c :: s) current = words.go [] current ++ words s := by
  rw [words.go.eq_def]
  cases current with
  | nil => exact if_pos hc
  | cons d ds => exact if_pos hc

/-- Any other character belongs to the word that was begun. -/
theorem words_go_of_not_blank {c : Char} (hc : isBlank c = false) (s current : List Char) :
    words.go (c :: s) current = words.go s (c :: current) := by
  rw [words.go.eq_def]
  exact if_neg (Bool.eq_false_iff.mp hc)

/-- White space before words does not matter. -/
theorem words_append_of_blank {before : List Char} (h : ∀ c ∈ before, isBlank c = true)
    (s : List Char) : words (before ++ s) = words s := by
  induction before with
  | nil => rfl
  | cons c before ih =>
    have hrest := ih fun d hd => h d (List.mem_cons_of_mem c hd)
    exact (words_go_of_blank (h c List.mem_cons_self) (before ++ s) []).trans hrest

/-- White space after words does not matter. -/
theorem words_append_blank {after : List Char} (h : ∀ c ∈ after, isBlank c = true)
    (s : List Char) : words (s ++ after) = words s := by
  have hgo : ∀ current, words.go (s ++ after) current = words.go s current := by
    induction s with
    | nil =>
      intro current
      cases after with
      | nil => rfl
      | cons c after =>
        have hblank := words_append_of_blank (fun d hd => h d (List.mem_cons_of_mem c hd)) []
        rw [List.append_nil] at hblank
        rw [List.nil_append, words_go_of_blank (h c List.mem_cons_self), hblank]
        exact List.append_nil _
    | cons c s ih =>
      intro current
      rw [List.cons_append]
      cases hc : isBlank c with
      | true => rw [words_go_of_blank hc, words_go_of_blank hc, words, ih, words]
      | false => rw [words_go_of_not_blank hc, words_go_of_not_blank hc, ih]
  exact hgo []

/-- A text has the words that are left when it is trimmed. -/
theorem words_trim (s : List Char) : words (trim s) = words s := by
  obtain ⟨before, after, hs, hbefore, hafter⟩ := exists_eq_append_trim s
  have hwords : words s = words (before ++ trim s ++ after) := congrArg words hs
  rw [hwords, words_append_blank hafter, words_append_of_blank hbefore]

/-- A text without white space is one word. -/
theorem words_go_of_forall {s : List Char} (h : ∀ c ∈ s, isBlank c = false) (current : List Char)
    (hne : current ++ s ≠ []) : words.go s current = [current.reverse ++ s] := by
  induction s generalizing current with
  | nil =>
    cases current with
    | nil => exact absurd rfl hne
    | cons c current => rw [words.go.eq_def, List.append_nil]
  | cons c s ih =>
    rw [words_go_of_not_blank (h c List.mem_cons_self),
      ih (fun d hd => h d (List.mem_cons_of_mem c hd)) (c :: current) (List.cons_ne_nil c _),
      List.reverse_cons, List.append_assoc, List.singleton_append]

/-- What follows the last blank is the last word. -/
theorem getLast?_words {c : Char} {s name : List Char} (hc : isBlank c = true) (hne : name ≠ [])
    (hname : ∀ d ∈ name, isBlank d = false) : (words (s ++ c :: name)).getLast? = some name := by
  have hlast : words name = [name] := words_go_of_forall hname [] hne
  have hgo : ∀ current, (words.go (s ++ c :: name) current).getLast? = some name := by
    induction s with
    | nil =>
      intro current
      rw [List.nil_append, words_go_of_blank hc, hlast, List.getLast?_concat]
    | cons d s ih =>
      intro current
      rw [List.cons_append]
      cases hd : isBlank d with
      | true =>
        rw [words_go_of_blank hd, List.getLast?_append, words, ih]
        rfl
      | false => rw [words_go_of_not_blank hd, ih]
  exact hgo []

/-! ## Lines -/

/-- A line that was ended by a line feed loses one carriage return before it. -/
def dropCarriageReturn (line : List Char) : List Char :=
  match line.getLast? with
  | some '\r' => line.dropLast
  | _ => line

/-- The lines of a text. A line ends at a line feed, with one carriage return before it dropped;
what follows the last line feed is a line if it is not empty, and keeps its carriage return. -/
def lines (s : List Char) : List (List Char) :=
  go s []
where
  /-- Reads on with the line `current` (reversed) begun. -/
  go : List Char → List Char → List (List Char)
    | [], [] => []
    | [], current => [current.reverse]
    | '\n' :: rest, current => dropCarriageReturn current.reverse :: go rest []
    | c :: rest, current => go rest (c :: current)

/-- The lines of a string. -/
def stringLines (s : String) : List String :=
  (lines s.toList).map String.ofList

/-! ## Replacing -/

/-- What follows `pat` in a text that begins with it. -/
def stripStart? : List Char → List Char → Option (List Char)
  | [], s => some s
  | _ :: _, [] => none
  | p :: pat, c :: s => if p = c then stripStart? pat s else none

/-- What follows the beginning of a text is found again. -/
@[simp] theorem stripStart?_append (pat s : List Char) : stripStart? pat (pat ++ s) = some s := by
  induction pat with
  | nil => cases s <;> rfl
  | cons p pat ih => simp [stripStart?, ih]

/-- A text from which a beginning was taken had it. -/
theorem eq_append_of_stripStart? {pat s rest : List Char} (h : stripStart? pat s = some rest) :
    s = pat ++ rest := by
  induction pat generalizing s with
  | nil =>
    cases s <;> simp_all [stripStart?]
  | cons p pat ih =>
    cases s with
    | nil => simp [stripStart?] at h
    | cons c s =>
      simp only [stripStart?] at h
      split at h
      · rename_i hc
        rw [ih h, hc, List.cons_append]
      · simp at h

/-- A text that begins otherwise has nothing taken from it. -/
theorem stripStart?_eq_none {pat s : List Char} (h : ¬ pat <+: s) : stripStart? pat s = none := by
  cases hstrip : stripStart? pat s with
  | none => rfl
  | some rest => exact absurd ⟨rest, (eq_append_of_stripStart? hstrip).symm⟩ h

/-- Something is taken from just the texts that begin with it. -/
theorem isSome_stripStart?_iff {pat s : List Char} : (stripStart? pat s).isSome ↔ pat <+: s := by
  constructor
  · intro h
    obtain ⟨rest, hrest⟩ := Option.isSome_iff_exists.mp h
    exact ⟨rest, (eq_append_of_stripStart? hrest).symm⟩
  · rintro ⟨rest, rfl⟩
    rw [stripStart?_append]
    rfl

/-- Replaces every occurrence of `pat` by `new`, from left to right; `pat` is not empty. `skip`
characters of the last occurrence are still to be passed over. -/
def replaceFrom (pat new : List Char) : Nat → List Char → List Char
  | _, [] => []
  | skip + 1, _ :: rest => replaceFrom pat new skip rest
  | 0, c :: rest =>
    match stripStart? pat (c :: rest) with
    | some _ => new ++ replaceFrom pat new (pat.length - 1) rest
    | none => c :: replaceFrom pat new 0 rest

/-- Replaces every occurrence of `pat`, which is not empty, by `new`; what is inserted is not read
again. -/
def replaceAll (pat new s : List Char) : List Char :=
  replaceFrom pat new 0 s

/-- Replaces every occurrence of one character by another. -/
def replaceChar (old new : Char) (s : List Char) : List Char :=
  s.map fun c => if c = old then new else c

/-- The texts with `sep` between them. -/
def joinWith (sep : String) (parts : List String) : String :=
  sep.intercalate parts

end SolverPortfolio.Text

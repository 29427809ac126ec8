import SolverPortfolio.Utility.Basic

/-
# Utilities for lines

Taking, ordering, counting and changing the lines of a text.

Main definitions: `Lines.head`, `Lines.tail`, `Lines.cut`, `Lines.sort`,
`Lines.uniq`, `Lines.wc`, `Lines.seq`.
-/

namespace SolverPortfolio.Lines

/-! ## Lines with their ends -/

/-- The lines of a text with their line feeds; the last one may have none. -/
def withEnds : Octets → List Octets
  | [] => []
  | c :: rest =>
    if c = '\n' then [c] :: withEnds rest
    else
      match withEnds rest with
      | [] => [[c]]
      | line :: more => (c :: line) :: more

/-- Cutting a text into lines loses nothing. -/
theorem flatten_withEnds (s : Octets) : (withEnds s).flatten = s := by
  induction s with
  | nil => rfl
  | cons c rest ih =>
    rw [withEnds]
    split
    · simp [ih]
    · cases h : withEnds rest with
      | nil => simp_all
      | cons line more => rw [h] at ih; simp_all

/-- The number of lines that have an end. -/
def countEnds (s : Octets) : Nat := s.count '\n'

/-! ## The first and the last lines -/

/-- How much of a text is taken. -/
structure Amount where
  /-- Are octets counted, and not lines? -/
  octets : Bool
  sign : Option Char
  size : Nat

/-- Reads an amount. -/
def readAmount (octets : Bool) (s : Octets) : Amount :=
  match s with
  | '-' :: ds => ⟨octets, some '-', Text.digitsValue (ds.takeWhile Text.isDigit)⟩
  | '+' :: ds => ⟨octets, some '+', Text.digitsValue (ds.takeWhile Text.isDigit)⟩
  | ds => ⟨octets, none, Text.digitsValue (ds.takeWhile Text.isDigit)⟩

/-- Writes amounts such as `-5` as values of an option. The flag tells whether the first argument is
such a value already. -/
def spellAmounts (isValue : Bool) : List Octets → List Octets
  | [] => []
  | a :: rest =>
    match isValue, a with
    | false, '-' :: d :: ds =>
      if Text.isDigit d then ['-', 'n'] :: (d :: ds) :: spellAmounts false rest
      else a :: spellAmounts (ds.isEmpty && (d = 'n' || d = 'c')) rest
    | _, _ => a :: spellAmounts false rest

/-- The amount that options ask for. -/
def amountOf (options : List (Char × Octets)) : Amount :=
  match optionValue? options 'c' with
  | some s => readAmount true s
  | none => readAmount false ((optionValue? options 'n').getD ['1', '0'])

/-- The pieces that are counted. -/
def Amount.pieces (a : Amount) (s : Octets) : List Octets :=
  if a.octets then s.map fun c => [c] else withEnds s

/-- The first part of a text. -/
def Amount.first (a : Amount) (s : Octets) : Octets :=
  let pieces := a.pieces s
  (pieces.take (if a.sign = some '-' then pieces.length - a.size else a.size)).flatten

/-- The last part of a text. -/
def Amount.last (a : Amount) (s : Octets) : Octets :=
  let pieces := a.pieces s
  (pieces.drop (if a.sign = some '+' then a.size - 1 else pieces.length - a.size)).flatten

/-- Is the first part of a text there, whatever follows? -/
def Amount.isReached (a : Amount) (s : Octets) : Bool :=
  a.sign ≠ some '-' && decide (a.size ≤ if a.octets then s.length else countEnds s)

/-- The parts of several texts, each under its name if there is more than one. -/
def titled (part : Octets → Octets) (sources : List Source) : Octets :=
  match sources with
  | [s] => part s.content
  | _ =>
    let name := fun s : Source => if s.name = ['-'] then "standard input".toList else s.name
    List.intercalate ['\n'] (sources.map fun s =>
      "==> ".toList ++ name s ++ " <==\n".toList ++ part s.content)

/-- The complaint about a file that cannot be opened. -/
def cannotOpen (utility path : String) : String := s!"{utility}: cannot open '{path}' for reading"

/-- The first lines. -/
def head (disk : Disk) (arguments : List Octets) : Deed :=
  let (options, paths) := splitOptions ['n', 'c'] (spellAmounts false arguments)
  let amount := amountOf options
  .filter (Filter.ofFiles (cannotOpen "head") disk paths fun sources ended =>
    let reached := match sources with
      | [s] => decide (paths.length ≤ 1) && amount.isReached s.content
      | _ => false
    Progress.atEnd (titled amount.first sources) (ended || reached))

/-- The last lines. -/
def tail (disk : Disk) (arguments : List Octets) : Deed :=
  let (options, paths) := splitOptions ['n', 'c'] (spellAmounts false arguments)
  let amount := amountOf options
  .filter (Filter.ofFiles (cannotOpen "tail") disk paths fun sources ended =>
    Progress.atEnd (titled amount.last sources) ended)

/-! ## Changing lines -/

/-- A utility that changes a text when all of it is there. -/
def whole (complain : String → String) (disk : Disk) (paths : List Octets)
    (f : Octets → Octets) : Deed :=
  .filter (Filter.ofText complain disk paths fun s ended => Progress.atEnd (f s) ended)

/-- The lines in the opposite order. -/
def tac (disk : Disk) (paths : List Octets) : Deed :=
  whole (fun path => s!"tac: failed to open '{path}' for reading") disk paths
    fun s => (withEnds s).reverse.flatten

/-- The characters of each line in the opposite order. -/
def rev (disk : Disk) (paths : List Octets) : Deed :=
  whole ("rev: " ++ ·) disk paths fun s =>
    (withEnds s).flatMap fun line =>
      if line.getLast? = some '\n' then line.dropLast.reverse ++ ['\n'] else line.reverse

/-- A number, with blanks in front up to a width. -/
def padded (width n : Nat) : Octets :=
  let ds := Nat.toDigits 10 n
  List.replicate (width - ds.length) ' ' ++ ds

/-- Numbers the lines of which that is asked for. -/
def numberLines (counts : Octets → Bool) (blank : Octets) (s : Octets) : Octets :=
  ((withEnds s).foldl
    (fun (n, output) line =>
      if counts line then (n + 1, output ++ padded 6 (n + 1) ++ '\t' :: line)
      else (n, output ++ blank ++ line))
    ((0, []) : Nat × Octets)).2

/-- Numbers the lines that are not empty. -/
def nl (disk : Disk) (paths : List Octets) : Deed :=
  whole ("nl: " ++ ·) disk paths (numberLines (fun line => line ≠ ['\n']) (List.replicate 7 ' '))

/-! ## Parts of lines -/

/-- The positions from the first to the last, or from the first on. -/
abbrev Span := Nat × Option Nat

/-- Reads a list of spans such as `1,3-5,7-`. -/
def readSpans (s : Octets) : List Span :=
  (Text.splitOn ',' s).map fun piece =>
    match Text.cutAt '-' piece with
    | none => (Text.digitsValue piece, some (Text.digitsValue piece))
    | some (first, last) =>
      (if first.isEmpty then 1 else Text.digitsValue first,
        if last.isEmpty then none else some (Text.digitsValue last))

/-- Does a position lie in one of several spans? -/
def isIn (spans : List Span) (n : Nat) : Bool :=
  spans.any fun (first, last) =>
    decide (first ≤ n) && (last.map fun last => decide (n ≤ last)).getD true

/-- The elements at the positions of spans. -/
def select {α : Type} (spans : List Span) (xs : List α) : List α :=
  (xs.zipIdx 1).filterMap fun (x, n) => if isIn spans n then some x else none

/-- Cuts parts out of lines. -/
def cut (disk : Disk) (arguments : List Octets) : Deed :=
  let (options, paths) := splitOptions ['d', 'f', 'c', 'b'] arguments
  let delimiter := ((optionValue? options 'd').getD ['\t']).headD '\t'
  let part : Octets → Option Octets := fun line =>
    match optionValue? options 'f', (optionValue? options 'c' <|> optionValue? options 'b') with
    | some spans, _ =>
      if line.contains delimiter then
        some (List.intercalate [delimiter]
          (select (readSpans spans) (Text.splitOn delimiter line)))
      else if hasOption options 's' then none else some line
    | none, some spans => some (select (readSpans spans) line)
    | none, none => some line
  if options.all fun o => !"fcb".toList.contains o.1 then
    .finish ⟨[], ["cut: you must specify a list of bytes, characters, or fields",
      "Try 'cut --help' for more information."], 1⟩
  else whole ("cut: " ++ ·) disk paths fun s => Octets.unlines ((Octets.lines s).filterMap part)

/-! ## Order -/

/-- A key by which lines are ordered: the fields it spans, and how they are compared. -/
structure SortKey where
  first : Nat
  last : Option Nat
  numeric : Bool
  reversed : Bool

/-- The number at the start of a text, as a fraction of ten to the twentieth. -/
def numberAt (s : Octets) : Int :=
  let s := s.dropWhile fun c => c = ' ' || c = '\t'
  let (negative, s) : Bool × Octets := match s with
    | '-' :: rest => (true, rest)
    | _ => (false, s)
  let digits := s.takeWhile Text.isDigit
  let fraction := match s.drop digits.length with
    | '.' :: rest => (rest.takeWhile Text.isDigit).take 20
    | _ => []
  let size := Text.digitsValue
    (digits ++ fraction ++ List.replicate (20 - fraction.length) '0')
  if negative then -(size : Int) else size

/-- Reads a key such as `2,3nr`. -/
def readKey (numeric reversed : Bool) (s : Octets) : SortKey :=
  let (first, last) := (Text.cutAt ',' s).getD (s, [])
  let letters := s.filter Char.isAlpha
  let number := fun s : Octets => Text.digitsValue (s.takeWhile Text.isDigit)
  { first := number first
    last := if last.isEmpty then none else some (number last)
    numeric := numeric || letters.contains 'n'
    reversed := reversed != letters.contains 'r' }

/-- The fields of a line: what stands between delimiters, or words with the blanks before them. -/
def fieldsOf (delimiter : Option Char) (line : Octets) : List Octets :=
  match delimiter with
  | some d => Text.splitOn d line
  | none => blankFields [] line
where
  /-- The words of a line with the blanks before them, after the field begun. -/
  blankFields (begun : Octets) : Octets → List Octets
    | [] => if begun.isEmpty then [] else [begun]
    | c :: rest =>
      if c = ' ' && begun.any (· ≠ ' ') then begun :: blankFields [c] rest
      else blankFields (begun ++ [c]) rest

/-- Compares two texts. -/
def compareTexts (numeric foldsCase : Bool) (a b : Octets) : Ordering :=
  if numeric then compare (numberAt a) (numberAt b)
  else
    let a := if foldsCase then a.map Char.toUpper else a
    let b := if foldsCase then b.map Char.toUpper else b
    if a < b then .lt else if a = b then .eq else .gt

/-- Compares two lines by a key. -/
def SortKey.compare (k : SortKey) (delimiter : Option Char) (foldsCase : Bool) (a b : Octets) :
    Ordering :=
  let part := fun line : Octets =>
    let fields := fieldsOf delimiter line
    let count := (k.last.map fun last => last + 1 - k.first).getD fields.length
    List.intercalate (delimiter.toList) ((fields.drop (k.first - 1)).take count)
  let answer := compareTexts k.numeric foldsCase (part a) (part b)
  if k.reversed then answer.swap else answer

/-- Leaves out elements that are like the one before. -/
def dropRepeats {α : Type} (same : α → α → Bool) : List α → List α
  | [] => []
  | [a] => [a]
  | a :: b :: rest =>
    if same a b then
      match dropRepeats same (b :: rest) with
      | [] => [a]
      | _ :: more => a :: more
    else a :: dropRepeats same (b :: rest)

/-- Orders lines. -/
def sort (disk : Disk) (arguments : List Octets) : Deed :=
  let (options, paths) := splitOptions ['k', 't'] arguments
  let numeric := hasOption options 'n' || hasOption options 'g'
  let reversed := hasOption options 'r'
  let foldsCase := hasOption options 'f'
  let delimiter := (optionValue? options 't').bind List.head?
  let keys := (options.filter (·.1 = 'k')).map fun o => readKey numeric reversed o.2
  let byKeys : Octets → Octets → Ordering := fun a b =>
    match keys with
    | [] =>
      let answer := compareTexts numeric foldsCase a b
      if reversed then answer.swap else answer
    | _ =>
      let compare := fun k : SortKey => k.compare delimiter foldsCase a b
      keys.foldl (fun answer k => answer.then (compare k)) .eq
  let byAll : Octets → Octets → Ordering := fun a b =>
    let last := compareTexts false false a b
    (byKeys a b).then (if reversed then last.swap else last)
  let isUnique := hasOption options 'u'
  whole ("sort: cannot read: " ++ ·) disk paths fun s =>
    let sorted := (Octets.lines s).mergeSort fun a b =>
      decide ((if isUnique then byKeys a b else byAll a b) ≠ .gt)
    Octets.unlines
      (if isUnique then dropRepeats (fun a b => decide (byKeys a b = .eq)) sorted else sorted)

/-- Lines that follow one another and are like each other, with their number. -/
def groups (same : Octets → Octets → Bool) : List Octets → List (Octets × Nat)
  | [] => []
  | line :: rest =>
    match groups same rest with
    | [] => [(line, 1)]
    | (other, n) :: more => if same line other then (line, n + 1) :: more
      else (line, 1) :: (other, n) :: more

/-- Leaves out lines that are like the one before. -/
def uniq (disk : Disk) (arguments : List Octets) : Deed :=
  let (options, paths) := splitOptions ['f', 's', 'w'] arguments
  let fold := fun line : Octets => if hasOption options 'i' then line.map Char.toLower else line
  whole ("uniq: " ++ ·) disk (paths.take 1) fun s =>
    let found := groups (fun a b => decide (fold a = fold b)) (Octets.lines s)
    let found := found.filter fun (_, n) =>
      (!hasOption options 'd' || decide (1 < n)) && (!hasOption options 'u' || n = 1)
    Octets.unlines (found.map fun (line, n) =>
      if hasOption options 'c' then padded 7 n ++ ' ' :: line else line)

/-! ## Counting -/

/-- The number of words of a text. -/
def countWords (s : Octets) : Nat := (Text.words s).length

/-- Counts lines, words and octets. -/
def wc (disk : Disk) (arguments : List Octets) : Deed :=
  let (options, paths) := splitOptions [] arguments
  let wanted := fun c => hasOption options c || options.isEmpty
  let counts := fun s : Octets =>
    (if wanted 'l' then [countEnds s] else []) ++ (if wanted 'w' then [countWords s] else []) ++
      (if wanted 'm' && !options.isEmpty then [(Octets.toText s).length] else []) ++
      (if wanted 'c' then [s.length] else [])
  .filter (Filter.ofFiles ("wc: " ++ ·) disk paths fun sources ended =>
    let all := sources.flatMap (·.content)
    let rows := sources.map fun s => (counts s.content, if paths.isEmpty then [] else s.name)
    let rows := if sources.length = 1 then rows else rows ++ [(counts all, "total".toList)]
    let isSingle := (counts all).length = 1 && rows.length = 1
    let width := if isSingle then 1
      else if sources.any (·.name = ['-']) then 7
      else (Nat.toDigits 10 all.length).length
    Progress.atEnd
      (rows.flatMap fun (numbers, name) =>
        List.intercalate [' '] (numbers.map (padded width)) ++
          (if name.isEmpty then [] else ' ' :: name) ++ ['\n'])
      ended)

/-- The numbers from a first one to a last one. -/
def seqNumbers (first step last : Int) : List Int :=
  if step = 0 then []
  else
    let distance := if 0 < step then last - first else first - last
    if distance < 0 then []
    else (List.range (distance.toNat / step.natAbs + 1)).map fun i : Nat => first + step * (i : Int)

/-- Writes numbers that follow one another. -/
def seq (arguments : List Octets) : Deed :=
  let (separator, arguments) : Octets × List Octets := match arguments with
    | ['-', 's'] :: s :: rest => (s, rest)
    | ('-' :: 's' :: s) :: rest => (s, rest)
    | rest => (['\n'], rest)
  let numbers := arguments.map fun a => (a, Text.readInt? 64 a)
  match numbers.find? (·.2.isNone) with
  | some (a, _) =>
    .finish ⟨[], [s!"seq: invalid floating point argument: '{Octets.toText a}'",
      "Try 'seq --help' for more information."], 1⟩
  | none =>
    let found := match numbers.filterMap (·.2) with
      | [last] => some (seqNumbers 1 1 last)
      | [first, last] => some (seqNumbers first 1 last)
      | [first, step, last] => some (seqNumbers first step last)
      | _ => none
    match found with
    | none =>
      .finish ⟨[], ["seq: missing operand", "Try 'seq --help' for more information."], 1⟩
    | some [] => .finish .silent
    | some numbers =>
      .finish (.printing
        (List.intercalate separator (numbers.map fun n => (toString n).toList) ++ ['\n']))

end SolverPortfolio.Lines

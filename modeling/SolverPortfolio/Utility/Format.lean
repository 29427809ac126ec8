import SolverPortfolio.Number.Literal
import SolverPortfolio.Utility.Escape

/-
# Formats

A format is a text in which directives such as `%s` and `%5.2f` stand for
arguments, and a backslash begins an escape. It is used again as long as there
are arguments left.

Main definitions: `Format.Style`, `Format.Directive`, `Format.run`.
-/

namespace SolverPortfolio.Format

/-- How formats are read and complaints are worded. -/
structure Style where
  extended : Bool
  /-- The precision of numbers with a fraction, in bits. -/
  bits : Nat

/-- The formats of the shell itself. -/
def Style.plain : Style := ⟨false, 53⟩

/-- The formats of the program for printing. -/
def Style.full : Style := ⟨true, 64⟩

/-- The words for an argument that is no number. -/
def Style.notNumber (style : Style) (s : Octets) : String :=
  if style.extended then s!"'{Octets.toText s}': expected a numeric value"
  else s!"{Octets.toText s}: expected numeric value"

/-- The words for an argument of which only the beginning is a number. -/
def Style.notWhole (style : Style) (s : Octets) : String :=
  if style.extended then s!"'{Octets.toText s}': value not completely converted"
  else s!"{Octets.toText s}: not completely converted"

/-- The words for an argument that is too great a number. -/
def Style.notInRange (style : Style) (s : Octets) : String :=
  let text := Octets.toText s
  let shown := if style.extended then s!"'{text}'" else text
  s!"{shown}: Numerical result out of range"

/-- The words for a directive that is not known. -/
def Style.notDirective (style : Style) (s : Octets) : String :=
  if style.extended then s!"{Octets.toText s}: invalid conversion specification"
  else s!"{Octets.toText s}: invalid directive"

/-- The letters before a conversion that have no meaning. -/
def Style.sizes (style : Style) : Octets := if style.extended then "hjlLtz".toList else []

/-! ## Directives -/

/-- A directive, without its percent sign. -/
structure Directive where
  flags : Octets
  /-- The width, which an argument may give. -/
  width : Option (Option Nat)
  precision : Option (Option Nat)
  conversion : Char
  length : Nat

/-- Reads a number of digits, or a star. -/
def readSize (s : Octets) : Option (Option Nat) × Nat :=
  match s with
  | '*' :: _ => (some none, 1)
  | _ =>
    let digits := s.takeWhile Text.isDigit
    if digits.isEmpty then (none, 0) else (some (some (Text.digitsValue digits)), digits.length)

/-- Reads what follows a percent sign. -/
def readDirective? (sizes : Octets) (s : Octets) : Option Directive :=
  let flags := s.takeWhile fun c => c = '-' || c = '+' || c = ' ' || c = '#' || c = '0'
  let s₁ := s.drop flags.length
  let (width, n) := readSize s₁
  let s₂ := s₁.drop n
  let (precision, m) : Option (Option Nat) × Nat := match s₂ with
    | '.' :: rest =>
      let (p, m) := readSize rest
      (some (p.getD (some 0)), m + 1)
    | _ => (none, 0)
  let s₃ := s₂.drop m
  let sizes := s₃.takeWhile sizes.contains
  match s₃.drop sizes.length with
  | [] => none
  | c :: _ => some ⟨flags, width, precision, c, flags.length + n + m + sizes.length + 1⟩

/-- Fills a text up to a width. -/
def pad (left zeros : Bool) (width : Nat) (s : Octets) : Octets :=
  let missing := width - s.length
  if left then s ++ List.replicate missing ' '
  else if zeros then
    let sign := s.takeWhile fun c => c = '-' || c = '+' || c = ' '
    sign ++ List.replicate missing '0' ++ s.drop sign.length
  else List.replicate missing ' ' ++ s

/-! ## Numbers -/

/-- The sign that is shown. -/
def signOf (flags : Octets) (negative : Bool) : Octets :=
  if negative then ['-']
  else if flags.contains '+' then ['+']
  else if flags.contains ' ' then [' '] else []

/-- Reads the whole number at the start of an argument, and says whether there is one and whether it
is all of the argument. A quote stands for the code of the character after it, and nothing for
zero. -/
def readWhole (s : Octets) : Int × Bool × Bool :=
  match s with
  | [] => (0, true, true)
  | '\'' :: c :: _ => (c.toNat, true, true)
  | '"' :: c :: _ => (c.toNat, true, true)
  | _ =>
    match Number.readWhole? s with
    | some (n, rest) => (n, true, rest.isEmpty)
    | none => (0, false, false)

/-- The least and the greatest number that a conversion can show. -/
def wordRange (isSigned : Bool) : Int × Int :=
  if isSigned then (-9223372036854775808, 9223372036854775807)
  else (-18446744073709551615, 18446744073709551615)

/-- Rounds a positive fraction to a number of bits: a whole number times a power of two. -/
def roundBits (bits num den : Nat) : Nat × Int :=
  let e : Int := (num.log2 : Int) - den.log2 - bits + 1
  let m :=
    if e < 0 then Number.halfToEven (num * Nat.pow 2 e.natAbs) den
    else Number.halfToEven num (den * Nat.pow 2 e.natAbs)
  (m, e)

/-- A positive fraction rounded to a number of bits, as a fraction. -/
def rounded (bits num den : Nat) : Nat × Nat :=
  if num = 0 then (0, 1)
  else
    let (m, e) := roundBits bits num den
    (m * Nat.pow 2 e.toNat, Nat.pow 2 (-e).toNat)

/-- The fraction that a decimal numeral denotes. -/
def fractionOf (l : Number.Literal) : Nat × Nat :=
  (l.significand * Nat.pow 10 l.power.toNat, Nat.pow 10 (-l.power).toNat)

/-- Digits with at least a given number of them. -/
def digitsOf (width n : Nat) : Octets :=
  let ds := Nat.toDigits 10 n
  List.replicate (width - ds.length) '0' ++ ds

/-- Writes a fraction with a number of digits after the point. -/
def fixed (places num den : Nat) : Octets :=
  let ds := digitsOf (places + 1) (Number.halfToEven (num * Nat.pow 10 places) den)
  let whole := ds.take (ds.length - places)
  if places = 0 then whole else whole ++ '.' :: ds.drop (ds.length - places)

/-- The power of ten of the first digit of a positive fraction, found from a power that is not below
it. -/
def firstPlace (num den : Nat) : Nat → Int → Int
  | 0, e => e
  | fuel + 1, e =>
    let reached : Bool :=
      if 0 ≤ e then decide (den * Nat.pow 10 e.toNat ≤ num)
      else decide (den ≤ num * Nat.pow 10 (-e).toNat)
    if reached then e else firstPlace num den fuel (e - 1)

/-- The digits of a fraction, one before the point and `places` after it, and the power of ten. -/
def scientificDigits (places num den : Nat) : Octets × Int :=
  if num = 0 then (List.replicate (places + 1) '0', 0)
  else
    let top : Int := (num.log2 : Int) - den.log2 + 1
    let start := if 0 ≤ top then top else top * 30103 / 100000 + 1
    let e := firstPlace num den (top.natAbs + 400) start
    let scale : Int := places - e
    let n := Number.halfToEven (num * Nat.pow 10 scale.toNat) (den * Nat.pow 10 (-scale).toNat)
    let ds := Nat.toDigits 10 n
    if ds.length = places + 2 then (ds.dropLast, e + 1) else (ds, e)

/-- Writes digits with a power of ten. -/
def withPower (ds : Octets) (e : Int) (letter : Char) : Octets :=
  let fraction := ds.drop 1
  ds.take 1 ++ (if fraction.isEmpty then [] else '.' :: fraction) ++
    [letter, if e < 0 then '-' else '+'] ++ digitsOf 2 e.natAbs

/-- Drops zeros at the end of a fraction. -/
def dropZeros (s : Octets) : Octets :=
  if s.contains '.' then Text.dropEnd (· = '.') (Text.dropEnd (· = '0') s) else s

/-- Writes a fraction as a directive asks. -/
def showFraction (conversion : Char) (precision : Nat) (keepZeros : Bool) (num den : Nat) :
    Octets :=
  if conversion = 'f' || conversion = 'F' then fixed precision num den
  else if conversion = 'e' || conversion = 'E' then
    let (ds, e) := scientificDigits precision num den
    withPower ds e conversion
  else
    let p := max precision 1
    let (ds, e) := scientificDigits (p - 1) num den
    if e < -4 ∨ (p : Int) ≤ e then
      let shown := if keepZeros then ds else
        match Text.dropEnd (· = '0') ds with
        | [] => ds.take 1
        | kept => kept
      withPower shown e (if conversion = 'G' then 'E' else 'e')
    else
      let s := fixed ((p : Int) - 1 - e).toNat num den
      if keepZeros then s else dropZeros s

/-! ## Filling in -/

/-- What a format has come to. -/
structure Filled where
  output : Octets
  complaints : List String
  stops : Bool
  /-- Is there a directive that is not known? -/
  refused : Bool

/-- Nothing, to begin with. -/
def Filled.none : Filled := ⟨[], [], false, false⟩

/-- The exit code of the shell for a format. -/
def Filled.status (f : Filled) : Nat :=
  if f.refused then 2 else if f.complaints.isEmpty then 0 else 1

/-- Puts output in front. -/
def Filled.after (f : Filled) (output : Octets) (complaints : List String) : Filled :=
  { f with output := output ++ f.output, complaints := complaints ++ f.complaints }

/-- What a directive shows for an argument, the complaints about it, and whether the output ends. -/
def convert (style : Style) (d : Directive) (width precision : Option Nat)
    (argument : Option Octets) : Octets × List String × Bool :=
  let left := d.flags.contains '-'
  let zeros := d.flags.contains '0'
  let w := width.getD 0
  let c := d.conversion
  let s := argument.getD []
  let complaintsOf (found whole fits : Bool) : List String :=
    let cut := if whole then [] else [style.notWhole s]
    let great := if fits then [] else [style.notInRange s]
    if argument = Option.none then []
    else if !found then [style.notNumber s]
    else (if style.extended then great ++ cut else cut ++ great).take 1
  let readWord (isSigned : Bool) : Int × List String :=
    let (n, found, whole) := readWhole s
    let (least, greatest) := wordRange isSigned
    let fits := decide (least ≤ n ∧ n ≤ greatest)
    let limit := if isSigned && n < 0 then least else greatest
    (if fits then n else limit, complaintsOf found whole fits)
  if c = 's' then (pad left false w (s.take (precision.getD s.length)), [], false)
  else if c = 'c' then (pad left false w (if s.isEmpty then ['\x00'] else s.take 1), [], false)
  else if c = 'b' then
    let (t, stops) := unescape ⟨style.extended, true⟩ s
    (pad left false w (t.take (precision.getD t.length)), [], stops)
  else if c = 'd' || c = 'i' then
    let (n, complaints) := readWord true
    let digits := digitsOf (precision.getD 1) n.natAbs
    (pad left (zeros && precision.isNone) w (signOf d.flags (n < 0) ++ digits),
      complaints, false)
  else if c = 'u' || c = 'o' || c = 'x' || c = 'X' then
    let (n, complaints) := readWord false
    let n := (n % 18446744073709551616).toNat
    let base := if c = 'u' then 10 else if c = 'o' then 8 else 16
    let ds := Nat.toDigits base n
    let ds := List.replicate (precision.getD 1 - ds.length) '0' ++ ds
    let mark : Octets := if d.flags.contains '#' && n ≠ 0 then
        (if c = 'o' then ['0'] else if c = 'u' then [] else ['0', 'x'])
      else []
    let shown := mark ++ ds
    let shown := if c = 'X' then shown.map Char.toUpper else shown
    (pad left (zeros && precision.isNone) w shown, complaints, false)
  else
    let trimmed := s.dropWhile fun c => c = ' ' || c = '\t' || c = '\n'
    let number := Number.readLiteral? trimmed
    let (num, den) := (number.map fractionOf).getD (0, 1)
    let (num, den) := rounded style.bits num den
    let negative := (number.map (·.negative)).getD false
    let shown := showFraction c (precision.getD 6) (d.flags.contains '#') num den
    let complaints := complaintsOf (number.isSome || s.isEmpty) true true
    (pad left zeros w (signOf d.flags negative ++ shown), complaints, false)

/-- The conversions that are known. -/
def conversions : Octets := "scbdiuoxXfFeEgG".toList

/-- Fills arguments into a format, and gives back those that are left. `skip` characters belong to
what was read before. -/
def fillFrom (style : Style) : Nat → Octets → List Octets → Filled × List Octets
  | _, [], arguments => (.none, arguments)
  | skip + 1, _ :: rest, arguments => fillFrom style skip rest arguments
  | 0, c :: rest, arguments =>
    if c = '\\' then
      let e := readEscape ⟨style.extended, false⟩ rest
      if e.stops then (⟨e.result, [], true, false⟩, [])
      else
        let (f, left) := fillFrom style e.length rest arguments
        (f.after e.result [], left)
    else if c = '%' then
      if rest.head? = some '%' then
        let (f, left) := fillFrom style 1 rest arguments
        (f.after ['%'] [], left)
      else
        match readDirective? style.sizes rest with
        | Option.none => (⟨[], [style.notDirective (c :: rest)], true, true⟩, [])
        | some d =>
          if !conversions.contains d.conversion then
            (⟨[], [style.notDirective (c :: rest.take d.length)], true, true⟩, [])
          else
            let takesWidth := d.width = some Option.none
            let width : Option Int := if takesWidth then
                some ((arguments.head?.map fun a => (readWhole a).1).getD 0)
              else d.width.join.map Int.ofNat
            let arguments := if takesWidth then arguments.drop 1 else arguments
            let takesPrecision := d.precision = some Option.none
            let precision : Option Int := if takesPrecision then
                some ((arguments.head?.map fun a => (readWhole a).1).getD 0)
              else d.precision.join.map Int.ofNat
            let arguments := if takesPrecision then arguments.drop 1 else arguments
            let d := if (width.map fun w => decide (w < 0)).getD false then
                { d with flags := '-' :: d.flags }
              else d
            let (shown, complaints, stops) :=
              convert style d (width.map Int.natAbs)
                (precision.bind fun p => if p < 0 then Option.none else some p.toNat)
                arguments.head?
            if stops then (⟨shown, complaints, true, false⟩, [])
            else
              let (f, left) := fillFrom style d.length rest (arguments.drop 1)
              (f.after shown complaints, left)
    else
      let (f, left) := fillFrom style 0 rest arguments
      (f.after [c] [], left)

/-- Fills arguments into a format, which is used again as long as it takes up arguments. -/
def fillAgain (style : Style) (format : Octets) : Nat → List Octets → Filled
  | 0, _ => .none
  | fuel + 1, arguments =>
    let (f, left) := fillFrom style 0 format arguments
    if f.stops || left.isEmpty || left.length = arguments.length then f
    else (fillAgain style format fuel left).after f.output f.complaints

/-- Fills arguments into a format. -/
def run (style : Style) (format : Octets) (arguments : List Octets) : Filled :=
  fillAgain style format (arguments.length + 1) arguments

end SolverPortfolio.Format

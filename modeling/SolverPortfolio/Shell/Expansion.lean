import SolverPortfolio.Shell.Arithmetic
import SolverPortfolio.Shell.Pattern

/-
# Filling in words

The words of a command are filled in from left to right: parameters and
expressions get their values, and what is not quoted is cut into fields at
separators. A word may thus become several fields, or none.

Main definitions: `Shell.Fields`, `Shell.Expanding`, `Shell.expandWords`,
`Shell.expandValue`, `Shell.expandPattern`.
-/

namespace SolverPortfolio.Shell

/-! ## Fields -/

/-- The fields made so far, the last one first, and the one being made. -/
structure Fields where
  finished : List Field
  current : Option Field

namespace Fields

/-- No fields. -/
def none : Fields := ⟨[], Option.none⟩

/-- Goes on with the field being made. -/
def extend (f : Fields) (s : Field) : Fields :=
  { f with current := some (f.current.getD [] ++ s) }

/-- Ends the field being made. -/
def cut (f : Fields) : Fields :=
  match f.current with
  | some w => ⟨w :: f.finished, Option.none⟩
  | Option.none => f

/-- All fields, in order. -/
def all (f : Fields) : List Field := f.cut.finished.reverse

/-- Goes on with a character that may be a separator. The flag tells whether blanks have just ended
a field. -/
def addSplitChar (separators : Octets) (f : Fields × Bool) (c : Char) : Fields × Bool :=
  if !separators.contains c then (f.1.extend [(c, false)], false)
  else if c = ' ' || c = '\t' || c = '\n' then (f.1.cut, f.2 || f.1.current.isSome)
  else
    match f.1.current with
    | some _ => (f.1.cut, false)
    | Option.none => if f.2 then (f.1, false) else ((f.1.extend []).cut, false)

/-- Goes on with a value that is cut at separators. -/
def addSplit (separators : Octets) (f : Fields) (s : Octets) : Fields :=
  (s.foldl (addSplitChar separators) (f, false)).1

/-- Goes on with several values, each of which begins a field of its own. -/
def addAll (add : Fields → Octets → Fields) (f : Fields) : List Octets → Fields
  | [] => f
  | [v] => add f v
  | v :: rest => addAll add (add f v).cut rest

end Fields

/-! ## Pieces -/

/-- Filling in words, which may change the state of the shell or fail. -/
abbrev Expanding := StateT State (Except String)

/-- How what is filled in becomes fields. -/
structure Manner where
  /-- Are unquoted values cut at separators? -/
  splits : Bool
  /-- Is unquoted text cut at separators, too? -/
  splitsText : Bool

/-- Goes on with a value. -/
def addValue (m : Manner) (quoted : Bool) (f : Fields) (s : Octets) : Expanding Fields := do
  if quoted || !m.splits then return f.extend (Field.ofOctets s quoted)
  else return f.addSplit (← get).separators s

/-- Goes on with all arguments of the shell. -/
def addArguments (m : Manner) (name : Octets) (quoted : Bool) (f : Fields) : Expanding Fields := do
  let state ← get
  let separators := state.separators
  if !m.splits then
    return f.extend (Field.ofOctets (List.intercalate [' '] state.arguments) quoted)
  else if !quoted then return f.addAll (Fields.addSplit separators) state.arguments
  else if name = ['@'] then
    return f.addAll (fun f s => f.extend (Field.ofOctets s true)) state.arguments
  else
    return f.extend (Field.ofOctets (List.intercalate (separators.take 1) state.arguments) true)

/-- The value of a parameter that has to be set if that is asked for. -/
def valueOrFail (name : Octets) : Expanding Octets := do
  let state ← get
  match state.value? name with
  | some value => return value
  | none =>
    if state.unsetFails then throw s!"{Octets.toText name}: parameter not set" else return []

/-- Does a parameter count as not set? -/
def isUnset (name : Octets) (emptyCounts : Bool) : Expanding Bool := do
  let state ← get
  if name = ['@'] || name = ['*'] then return state.arguments.isEmpty
  else
    match state.value? name with
    | none => return true
    | some value => return emptyCounts && value.isEmpty

mutual

/-- Goes on with the pieces of a word. -/
def addPieces : Nat → Manner → Fields → Word → Expanding Fields
  | 0, _, f, _ => return f
  | _, _, f, [] => return f
  | fuel + 1, m, f, p :: rest => do addPieces fuel m (← addPiece fuel m f p) rest

/-- Goes on with a piece. -/
def addPiece : Nat → Manner → Fields → Piece → Expanding Fields
  | 0, _, f, _ => return f
  | fuel + 1, m, f, p => do
    match p with
    | .text s quoted =>
      if quoted || !m.splitsText then return f.extend (Field.ofOctets s quoted)
      else addValue m quoted f s
    | .printed s quoted => addValue m quoted f s
    | .script _ _ => return f
    | .arithmetic e quoted => do
      let e ← plainText fuel e
      match Arithmetic.evaluate e (← get) with
      | .error message => throw message
      | .ok (value, state) => do
        set state
        addValue m quoted f (Arithmetic.ofInt value)
    | .parameter name use quoted =>
      let inner := { m with splitsText := m.splits && !quoted }
      let plain : Expanding Fields := do
        if name = ['@'] || name = ['*'] then addArguments m name quoted f
        else addValue m quoted f (← valueOrFail name)
      match use with
      | .plain => plain
      | .length => do
        let state ← get
        if name = ['@'] || name = ['*'] then
          addValue m quoted f (State.ofNat state.arguments.length)
        else
          let value ← valueOrFail name
          addValue m quoted f (State.ofNat value.length)
      | .orElse emptyCounts word => do
        if ← isUnset name emptyCounts then addPieces fuel inner f word else plain
      | .ifSet emptyCounts word => do
        if ← isUnset name emptyCounts then
          if quoted then return f.extend [] else return f
        else addPieces fuel inner f word
      | .orAssign emptyCounts word => do
        if ← isUnset name emptyCounts then
          let value ← plainText fuel word
          modify fun state => state.assign name value
          addValue m quoted f value
        else plain
      | .orFail emptyCounts word => do
        if ← isUnset name emptyCounts then
          let message ← plainText fuel word
          let unset := if emptyCounts then "parameter not set or null" else "parameter not set"
          let message := if message.isEmpty then unset else Octets.toText message
          throw s!"{Octets.toText name}: {message}"
        else plain
      | .without atEnd longest pattern => do
        let f' ← addPieces fuel ⟨false, false⟩ .none pattern
        let pattern := Pattern.ofField (f'.current.getD [])
        addValue m quoted f (Pattern.dropMatch pattern atEnd longest (← valueOrFail name))

/-- The text that a word stands for when it is not cut. -/
def plainText : Nat → Word → Expanding Octets
  | 0, _ => return []
  | fuel + 1, w => do
    let f ← addPieces fuel ⟨false, false⟩ .none w
    return (f.current.getD []).plain

end

/-! ## Words -/

/-- How many pieces deep a word is filled in. -/
def depth : Nat := 10000

/-- The fields that words stand for. -/
def expandWords : List Word → Expanding (List Octets)
  | [] => return []
  | w :: rest => do
    let f ← addPieces depth ⟨true, false⟩ .none w
    return f.all.map Field.plain ++ (← expandWords rest)

/-- The text that a word stands for as a value. -/
def expandValue (w : Word) : Expanding Octets := plainText depth w

/-- The pattern that a word stands for. -/
def expandPattern (w : Word) : Expanding Pattern := do
  let f ← addPieces depth ⟨false, false⟩ .none w
  return Pattern.ofField (f.current.getD [])

end SolverPortfolio.Shell

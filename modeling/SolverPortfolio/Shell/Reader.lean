import SolverPortfolio.Shell.Part

/-
# Reading scripts

A script is read by descent: a list is made of pipelines, a pipeline of
commands, a command of words, a word of pieces, and a piece may hold a script
again. The first argument of each reader bounds how deep it descends, which a
multiple of the length of the script does.

Main definitions: `Shell.readPieces`, `Shell.readList`, `Shell.nextCommand`.
-/

namespace SolverPortfolio.Shell

/-! ## The descent -/

mutual

/-- Reads pieces up to where they end, after those read before, the last one first. -/
def readPieces : Nat → Surrounding → Word → Reading Word
  | 0, _, pieces => return pieces.reverse
  | fuel + 1, around, pieces => do
    let quoted := around.quotes?
    let plain (c : Char) : Reading Word := do
      skip 1
      readPieces fuel around (addChar pieces c quoted)
    match ← rest with
    | [] =>
      match around with
      | .bare => return pieces.reverse
      | .document => return pieces.reverse
      | .quotes => fail .openQuote
      | .braces _ => fail .openBrace
      | .arithmetic _ => fail .openArithmetic
    | '\\' :: '\n' :: _ => do
      skip 2
      readPieces fuel around pieces
    | '\\' :: c :: _ => do
      if around.keepsBackslash c then plain '\\'
      else do
        skip 2
        readPieces fuel around (addChar pieces c true)
    | '$' :: _ => do
      let p ← readDollar fuel quoted
      match p with
      | some p => readPieces fuel around (p :: pieces)
      | none => plain '$'
    | '\x60' :: s => do
      match backquoted quoted s with
      | none => fail .openBackquote
      | some (script, n) => do
        skip (n + 1)
        readPieces fuel around (.script script quoted :: pieces)
    | c :: s => do
      if around = .bare && isBreak c then return pieces.reverse
      else if around = .quotes && c = '"' then do
        skip 1
        return pieces.reverse
      else if c = '\x7d' && (around = .braces true || around = .braces false) then do
        skip 1
        return pieces.reverse
      else
        match around, c with
        | .arithmetic depth, '(' => do
          skip 1
          readPieces fuel (.arithmetic (depth + 1)) (addChar pieces c quoted)
        | .arithmetic 0, ')' =>
          match s with
          | ')' :: _ => do
            skip 2
            return pieces.reverse
          | _ => fail .openArithmetic
        | .arithmetic (depth + 1), ')' => do
          skip 1
          readPieces fuel (.arithmetic depth) (addChar pieces c quoted)
        | .arithmetic _, _ => plain c
        | .document, _ => plain c
        | .quotes, _ => plain c
        | _, '\'' =>
          if quoted then plain c
          else do
            let inside := s.takeWhile (· ≠ '\'')
            if inside.length = s.length then fail .openQuote
            skip (inside.length + 2)
            readPieces fuel around (.text inside true :: pieces)
        | _, '"' => do
          skip 1
          let inside ← readPieces fuel .quotes []
          let inside := if inside.isEmpty then [.text [] true] else inside
          readPieces fuel around (inside.reverse ++ pieces)
        | _, _ => plain c

/-- Reads what a dollar sign begins, if it begins anything. -/
def readDollar : Nat → Bool → Reading (Option Piece)
  | 0, _ => return none
  | fuel + 1, quoted => do
    let place ← get
    match place.rest.drop 1 with
    | '(' :: '(' :: _ =>
      match (do skip 3; readPieces fuel (.arithmetic 0) [] : Reading Word).run place with
      | .ok (e, place) => do
        set place
        return some (.arithmetic e quoted)
      | .error _ => readScript fuel quoted
    | '(' :: _ => readScript fuel quoted
    | '\x7b' :: _ => do
      skip 2
      let p ← readBraces fuel quoted
      return some p
    | s =>
      match parameterName false s with
      | [] => return none
      | name => do
        skip (name.length + 1)
        return some (.parameter name .plain quoted)

/-- Reads a script in parentheses. -/
def readScript : Nat → Bool → Reading (Option Piece)
  | 0, _ => return none
  | fuel + 1, quoted => do
    skip 2
    let start ← rest
    let _ ← readList fuel
    skipLines
    let s ← rest
    match s with
    | ')' :: _ => do
      skip 1
      return some (.script (start.take (start.length - s.length)) quoted)
    | _ => refuse (some "\")\"")

/-- Reads what stands in the braces of a parameter. -/
def readBraces : Nat → Bool → Reading Piece
  | 0, _ => fail .badSubstitution
  | fuel + 1, quoted => do
    let s ← rest
    let measured := parameterName true (s.drop 1)
    if s.head? = some '#' && !measured.isEmpty && (s.drop (1 + measured.length)).head? = some '\x7d'
    then
      skip (measured.length + 2)
      return .parameter measured .length quoted
    else
      let name := parameterName true s
      if name.isEmpty then fail .badSubstitution
      skip name.length
      let use : Reading Use := do
        match ← rest with
        | '\x7d' :: _ => do
          skip 1
          return .plain
        | ':' :: sign :: _ =>
          if isUseSign sign then do
            skip 2
            return useOf sign true (← readPieces fuel (.braces quoted) [])
          else fail .badSubstitution
        | '%' :: '%' :: _ => do
          skip 2
          return .without true true (← readPieces fuel (.braces false) [])
        | '%' :: _ => do
          skip 1
          return .without true false (← readPieces fuel (.braces false) [])
        | '#' :: '#' :: _ => do
          skip 2
          return .without false true (← readPieces fuel (.braces false) [])
        | '#' :: _ => do
          skip 1
          return .without false false (← readPieces fuel (.braces false) [])
        | sign :: _ =>
          if isUseSign sign then do
            skip 1
            return useOf sign false (← readPieces fuel (.braces quoted) [])
          else fail .badSubstitution
        | [] => fail .openBrace
      return .parameter name (← use) quoted

/-- Reads a redirection, if one comes next. -/
def readRedirection : Nat → Reading (Option Redirection)
  | 0 => return none
  | fuel + 1 => do
    skipBlanks
    match redirectSign? (← rest) with
    | none => return none
    | some (stream, kind, n) => do
      let sign := (← rest).take n
      skip n
      skipBlanks
      let s ← rest
      if s.isEmpty || (s.head?.map isBreak).getD true then refuse none
      let target ← readPieces fuel .bare []
      if kind = .document then
        let (delimiter, quoted) := (literal target).getD ([], false)
        let document ← takeDocument (sign.getLast? = some '-') delimiter
        if quoted then return some ⟨stream, kind, [.text document true]⟩
        else
          let line := (← get).line
          match (readPieces fuel .document []).run ⟨document, line⟩ with
          | .ok (pieces, _) => return some ⟨stream, kind, pieces⟩
          | .error e => throw e
      else return some ⟨stream, kind, target⟩

/-- Reads redirections as long as there are some. -/
def readRedirections : Nat → Reading (List Redirection)
  | 0 => return []
  | fuel + 1 => do
    match ← readRedirection fuel with
    | none => return []
    | some r => return r :: (← readRedirections fuel)

/-- Reads a simple command of which some parts were read before. -/
def readSimple : Nat → Nat → List (Octets × Word) → List Word → List Redirection → Reading Command
  | 0, line, assignments, words, redirections =>
    return .simple line assignments words redirections
  | fuel + 1, line, assignments, words, redirections => do
    match ← readRedirection fuel with
    | some r => readSimple fuel line assignments words (redirections ++ [r])
    | none => do
      let s ← rest
      if s.isEmpty || (s.head?.map isBreak).getD true then
        match s, words with
        | '(' :: _, [[.text name false]] => do
          skip 1
          skipBlanks
          match ← rest with
          | ')' :: _ => skip 1
          | _ => refuse (some "\")\"")
          if !isName name then fail .badFunctionName
          skipLines
          return .definition name (← readCommand fuel)
        | _, _ => return .simple line assignments words redirections
      else do
        let word ← readPieces fuel .bare []
        match words, assignment? word with
        | [], some a => readSimple fuel line (assignments ++ [a]) [] redirections
        | _, _ => readSimple fuel line assignments (words ++ [word]) redirections

/-- Reads words up to the end of a line or of a list. -/
def readWords : Nat → Reading (List Word)
  | 0 => return []
  | fuel + 1 => do
    skipBlanks
    let s ← rest
    if s.isEmpty || (s.head?.map isBreak).getD true then return []
    else do
      let word ← readPieces fuel .bare []
      return word :: (← readWords fuel)

/-- Reads the patterns of an arm of a choice, up to the parenthesis. -/
def readPatterns : Nat → Reading (List Word)
  | 0 => return []
  | fuel + 1 => do
    skipBlanks
    let s ← rest
    if s.isEmpty || (s.head?.map isBreak).getD true then refuse none
    let word ← readPieces fuel .bare []
    skipBlanks
    match ← rest with
    | '|' :: _ => do
      skip 1
      return word :: (← readPatterns fuel)
    | ')' :: _ => do
      skip 1
      return [word]
    | _ => refuse (some "\")\"")

/-- Reads the arms of a choice. -/
def readArms : Nat → Reading (List (List Word × Command))
  | 0 => return []
  | fuel + 1 => do
    skipLines
    if ← isNext "esac" then
      skip 4
      return []
    else do
      if (← rest).head? = some '(' then skip 1
      if (← rest).isEmpty then refuse (some "\")\"")
      let patterns ← readPatterns fuel
      let body ← readList fuel
      skipLines
      match ← rest with
      | ';' :: ';' :: _ => do
        skip 2
        return (patterns, body) :: (← readArms fuel)
      | _ => do
        expectKeyword "esac"
        return [(patterns, body)]

/-- Reads what follows the test of a condition. -/
def readBranches : Nat → Reading Command
  | 0 => return .nothing
  | fuel + 1 => do
    let test ← readList fuel
    expectKeyword "then"
    let body ← readList fuel
    if ← isNext "elif" then
      skip 4
      return .conditional test body (← readBranches fuel)
    else if ← isNext "else" then
      skip 4
      let other ← readList fuel
      expectKeyword "fi"
      return .conditional test body other
    else do
      expectKeyword "fi"
      return .conditional test body .nothing

/-- Reads the body of a loop. -/
def readBody : Nat → Reading Command
  | 0 => return .nothing
  | fuel + 1 => do
    skipLines
    expectKeyword "do"
    let body ← readList fuel
    expectKeyword "done"
    return body

/-- Reads a command that a keyword or a parenthesis begins, if one comes next. -/
def readCompound : Nat → Reading (Option Command)
  | 0 => return none
  | fuel + 1 => do
    let s ← rest
    if s.head? = some '(' then
      skip 1
      let body ← readList fuel
      skipLines
      match ← rest with
      | ')' :: _ => skip 1
      | _ => refuse (some "\")\"")
      return some (.subshell body)
    else
      match plainWord s with
      | none => return none
      | some word => do
        match String.ofList word with
        | "\x7b" => do
          skip 1
          let body ← readList fuel
          expectKeyword "\x7d"
          return some body
        | "if" => do
          skip 2
          return some (← readBranches fuel)
        | "while" => do
          skip 5
          let test ← readList fuel
          return some (.loop false test (← readBody fuel))
        | "until" => do
          skip 5
          let test ← readList fuel
          return some (.loop true test (← readBody fuel))
        | "for" => do
          skip 3
          skipBlanks
          let name := (← rest).takeWhile fun c => !isBreak c
          if !isName name then fail .badLoopVariable
          skip name.length
          skipLines
          let words ← (do
            if ← isNext "in" then
              skip 2
              return some (← readWords fuel)
            else return none : Reading (Option (List Word)))
          skipBlanks
          if (← rest).head? = some ';' then skip 1
          return some (.each name words (← readBody fuel))
        | "case" => do
          skip 4
          skipBlanks
          let word ← readPieces fuel .bare []
          skipLines
          expectKeyword "in"
          return some (.choice word (← readArms fuel))
        | _ => return none

/-- Reads a command. -/
def readCommand : Nat → Reading Command
  | 0 => return .nothing
  | fuel + 1 => do
    skipBlanks
    match ← readCompound fuel with
    | some c => do
      match ← readRedirections fuel with
      | [] => return c
      | redirections => return .redirected c redirections
    | none => do
      if ← atListEnd then refuse none
      let line := (← get).line
      match ← readSimple fuel line [] [] [] with
      | .simple _ [] [] [] => refuse none
      | c => return c

/-- Reads the commands that are joined by pipes to those read before. -/
def readStages : Nat → List Command → Reading (List Command)
  | 0, stages => return stages
  | fuel + 1, stages => do
    let c ← readCommand fuel
    skipBlanks
    match ← rest with
    | '|' :: '|' :: _ => return stages ++ [c]
    | '|' :: _ => do
      skip 1
      skipLines
      readStages fuel (stages ++ [c])
    | _ => return stages ++ [c]

/-- Reads a pipeline. -/
def readPipeline : Nat → Reading Command
  | 0 => return .nothing
  | fuel + 1 => do
    skipBlanks
    if ← isNext "!" then
      skip 1
      return .pipeline true (← readStages fuel [])
    else
      match ← readStages fuel [] with
      | [c] => return c
      | stages => return .pipeline false stages

/-- Reads the pipelines that depend on how the command read before ends. -/
def readJoined : Nat → Command → Reading Command
  | 0, c => return c
  | fuel + 1, c => do
    skipBlanks
    match ← rest with
    | '&' :: '&' :: _ => do
      skip 2
      skipLines
      readJoined fuel (.both c (← readPipeline fuel))
    | '|' :: '|' :: _ => do
      skip 2
      skipLines
      readJoined fuel (.either c (← readPipeline fuel))
    | _ => return c

/-- Reads commands that follow one another, up to the end of the list. -/
def readList : Nat → Reading Command
  | 0 => return .nothing
  | fuel + 1 => do
    skipLines
    if ← atListEnd then return .nothing
    let first ← readJoined fuel (← readPipeline fuel)
    let (first, goesOn) ← readEnd first
    if goesOn then
      match ← readList fuel with
      | .nothing => return first
      | others => return .sequence first others
    else return first

end

/-- Reads commands up to the end of the line. -/
def readLine : Nat → Reading Command
  | 0 => return .nothing
  | fuel + 1 => do
    let depth := 10 * (← rest).length + 20
    let first ← readJoined depth (← readPipeline depth)
    let ended := (do skipBlanks; return (← rest).head? = some '\n' : Reading Bool)
    if ← ended then
      skip 1
      return first
    else
      let (first, goesOn) ← readEnd first
      skipBlanks
      match ← rest with
      | [] => return first
      | '\n' :: _ => do
        skip 1
        return first
      | _ =>
        if goesOn then return .sequence first (← readLine fuel)
        else refuse none

/-- Reads the next line of commands of a script, if there is one. -/
def nextCommand : Reading (Option Command) := do
  skipLines
  let s ← rest
  if s.isEmpty then return none else return some (← readLine s.length)

end SolverPortfolio.Shell

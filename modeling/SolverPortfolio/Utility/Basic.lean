import SolverPortfolio.Duration
import SolverPortfolio.Rehearsal.Disk
import SolverPortfolio.Text.Octets

/-
# Utilities

The small programs that every machine has. What a utility does is given by its
arguments and the files: it ends at once, changes files, sleeps, begins another
program, or turns what it reads into what it writes.

Main definitions: `Ending`, `Progress`, `Filter`, `Deed`, `Filter.ofFiles`.
-/

namespace SolverPortfolio

/-- What a program has written, and its exit code. -/
structure Ending where
  output : Octets
  /-- The lines for the stream for errors. -/
  complaints : List String
  status : Nat

namespace Ending

/-- A success without a word. -/
def silent : Ending := ⟨[], [], 0⟩

/-- A success with output. -/
def printing (output : Octets) : Ending := ⟨output, [], 0⟩

/-- A failure. -/
def fail (status : Nat) (complaint : String) : Ending := ⟨[], [complaint], status⟩

end Ending

/-- What a program has made of the input so far. -/
structure Progress where
  /-- All that is to be written for this input. -/
  output : Octets
  /-- The exit code, if the program does not wait for more. -/
  status : Option Nat

namespace Progress

/-- Waits for more input. -/
def waiting : Progress := ⟨[], none⟩

/-- The output is written when all input is there. -/
def atEnd (output : Octets) (ended : Bool) : Progress :=
  if ended then ⟨output, some 0⟩ else waiting

/-- The output is written as soon as it is known. -/
def atOnce (output : Octets) (ended : Bool) : Progress :=
  ⟨output, if ended then some 0 else none⟩

end Progress

/-- Something that was read, and its name. -/
structure Source where
  name : Octets
  content : Octets

/-- A program that turns what it reads into what it writes. -/
structure Filter where
  /-- The names and contents of what is read, in order. The input proper is what has no content. -/
  sources : List (Octets × Option Octets)
  /-- The lines for the stream for errors. -/
  complaints : List String
  /-- The exit code if all else goes well. -/
  status : Nat
  /-- What is made of what was read so far, and of whether that is all. -/
  respond : List Source → Bool → Progress

/-- The variables that a program gets. -/
abbrev Environment := List (Octets × Octets)

/-- Sets a variable, in its place if it was there before. -/
def Environment.set (e : Environment) (name value : Octets) : Environment :=
  if e.any (·.1 = name) then e.map fun v => if v.1 = name then (name, value) else v
  else e ++ [(name, value)]

/-- A variable that was set has its value. -/
theorem Environment.lookup_set (e : Environment) (name value : Octets) :
    (e.set name value).lookup name = some value := by
  rw [Environment.set]
  induction e with
  | nil => simp
  | cons v e ih =>
    obtain ⟨other, old⟩ := v
    by_cases h : other = name
    · simp [h]
    · have hne : (name == other) = false := by simpa using fun same => h same.symm
      by_cases any : e.any (·.1 = name) = true
      · rw [if_pos any] at ih
        simp [h, any, List.lookup_cons, hne, ih]
      · rw [if_neg any] at ih
        simp [h, any, List.lookup_cons, hne, ih]

/-- What a utility does. -/
inductive Deed where
  | finish (e : Ending)
  /-- Changes the files, and ends. -/
  | change (disk : Disk) (e : Ending)
  | filter (f : Filter)
  /-- Writes what it reads to its output and to files. -/
  | share (disk : Disk) (paths : List Path) (complaints : List String)
  | sleep (d : Duration)
  | sleepForever
  /-- Sends a signal to processes, or to groups where the number is negative. -/
  | send (signal : Nat) (targets : List Int)
  /-- Goes on as another program, which gets some variables. -/
  | become (environment : Environment) (command : List Octets)
  /-- Begins another program, which is ended after a duration. -/
  | limit (d : Duration) (command : List Octets)

namespace Filter

/-- Adds a file to what is read, where a dash is the input. The complaint about a file that cannot
be read depends on the path. -/
def addFile (complain : String → String) (disk : Disk) (f : Filter) (path : Octets) : Filter :=
  if path = ['-'] then { f with sources := f.sources ++ [(path, none)] }
  else
    match disk.read (Octets.toText path) with
    | .ok content => { f with sources := f.sources ++ [(path, some (Octets.ofBytes content))] }
    | .error e =>
      { f with
        complaints := f.complaints ++ [s!"{complain (Octets.toText path)}: {e.words}"]
        status := 1 }

/-- A filter that reads files, or the input if none is named. -/
def ofFiles (complain : String → String) (disk : Disk) (paths : List Octets)
    (respond : List Source → Bool → Progress) : Filter :=
  let paths := if paths.isEmpty then [['-']] else paths
  paths.foldl (addFile complain disk) ⟨[], [], 0, respond⟩

/-- A filter for which files are one text. -/
def ofText (complain : String → String) (disk : Disk) (paths : List Octets)
    (respond : Octets → Bool → Progress) : Filter :=
  ofFiles complain disk paths fun sources ended => respond (sources.flatMap (·.content)) ended

/-- Does a filter read the input proper? -/
def takesInput (f : Filter) : Bool := f.sources.any (·.2.isNone)

/-- What was read when the input so far is given, and whether that is all. -/
def readSources (input : Octets) (ended : Bool) : List (Octets × Option Octets) → List Source × Bool
  | [] => ([], true)
  | (name, some content) :: rest =>
    let (sources, all) := readSources input ended rest
    (⟨name, content⟩ :: sources, all)
  | (name, none) :: rest =>
    if ended then
      let (sources, all) := readSources [] ended rest
      (⟨name, input⟩ :: sources, all)
    else ([⟨name, input⟩], false)

/-- What a filter has made of the input so far. -/
def progress (f : Filter) (input : Octets) (ended : Bool) : Progress :=
  let (sources, all) := readSources input ended f.sources
  let p := f.respond sources all
  { p with status := p.status.map (max f.status) }

end Filter

/-- Splits arguments into options and others. An option is a letter, with a value if it is one of
those that take one; two dashes end the options. -/
def splitOptions (withValue : Octets) : List Octets → List (Char × Octets) × List Octets
  | [] => ([], [])
  | a :: rest =>
    match a with
    | ['-', '-'] => ([], rest)
    | '-' :: c :: more =>
      if c = '-' then
        let (options, others) := splitOptions withValue rest
        (('-', more) :: options, others)
      else if withValue.contains c && more.isEmpty then
        match rest with
        | value :: rest =>
          let (options, others) := splitOptions withValue rest
          ((c, value) :: options, others)
        | [] => ([(c, [])], [])
      else
        let (options, others) := splitOptions withValue rest
        (cluster c more ++ options, others)
    | _ =>
      let (options, others) := splitOptions withValue rest
      (options, a :: others)
where
  /-- The options in one argument. -/
  cluster (c : Char) : Octets → List (Char × Octets)
    | [] => [(c, [])]
    | d :: more =>
      if withValue.contains c then [(c, d :: more)] else (c, []) :: cluster d more

/-- Is an option given? -/
def hasOption (options : List (Char × Octets)) (c : Char) : Bool := options.any (·.1 = c)

/-- The value of an option, the last one if it is given several times. -/
def optionValue? (options : List (Char × Octets)) (c : Char) : Option Octets :=
  options.reverse.lookup c

end SolverPortfolio

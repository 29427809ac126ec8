import SolverPortfolio.Rehearsal.Path
import SolverPortfolio.Rehearsal.Script
import SolverPortfolio.Text.Utf8

/-
# Files of a rehearsal

A disk holds directories, files and programs by their paths. Going along a path
may fail: a name is missing, a file is no directory, a name is too long.

Main definitions: `Node`, `Disk`, `Disk.locate`, `Disk.read`, `Disk.write`,
`Disk.readText`.
-/

namespace SolverPortfolio

/-- What a path can lead to. -/
inductive Node where
  | directory
  | file (content : ByteArray)
  /-- A file that is always empty, whatever is written to it. -/
  | sink
  | program (p : Program)

/-- Files, directories and programs by their paths. -/
structure Disk where
  nodes : List (Path × Node)
  /-- The directory that one is in. -/
  directory : Path

namespace Disk

/-! ## The machine -/

/-- The directories that every machine has. -/
def directories : List Path :=
  [["bin"], ["dev"], ["etc"], Path.home, ["lib"], ["opt"], ["proc"], ["root"], ["sbin"], ["sys"],
    ["tmp"], ["usr"], ["usr", "bin"], ["usr", "lib"], ["usr", "local"], ["usr", "sbin"], ["var"],
    ["var", "tmp"]]

/-- The files of users and hosts that every machine has. -/
def accounts : String := "root:x:0:0:root:/root:/bin/bash\n"

/-- The files that every machine has. -/
def files : List (Path × Node) :=
  [(["dev", "null"], .sink), (["etc", "passwd"], .file accounts.toUTF8),
    (["etc", "group"], .file "root:x:0:\n".toUTF8), (["etc", "hosts"], .file ByteArray.empty)]

/-- A disk with nothing of one's own on it. -/
def empty : Disk := ⟨directories.map (fun path => (path, .directory)) ++ files, Path.home⟩

/-- The disk seen from a directory. -/
def seenFrom (d : Disk) (directory : Path) : Disk := { d with directory }

/-! ## Going along paths -/

/-- What a path leads to. -/
def node? (d : Disk) (path : Path) : Option Node :=
  if path.isEmpty then some .directory else d.nodes.lookup path

/-- Is this a directory? -/
def isDirectory (d : Disk) (path : Path) : Bool :=
  match d.node? path with
  | some .directory => true
  | _ => false

/-- Where a text leads: to something, or to a name that a directory does not have. -/
inductive Place where
  | found (path : Path) (node : Node)
  | absent (path : Path)

/-- Goes on from a path along names. -/
def walk (d : Disk) : Path → List String → Except SystemError Place
  | path, [] =>
    match d.node? path with
    | some node => .ok (.found path node)
    | none => .error .missing
  | path, name :: rest =>
    if !d.isDirectory path then .error .notDirectory
    else if name = "" ∨ name = "." then walk d path rest
    else if name = ".." then walk d path.dropLast rest
    else if Path.nameLimit < name.utf8ByteSize then .error .nameTooLong
    else
      match d.node? (path ++ [name]) with
      | some _ => walk d (path ++ [name]) rest
      | none => if rest.isEmpty then .ok (.absent (path ++ [name])) else .error .missing

/-- Where a text leads. -/
def locate (d : Disk) (text : String) : Except SystemError Place :=
  match Path.names d.directory text with
  | .error e => .error e
  | .ok (path, names) => d.walk path names

/-- What a text leads to. -/
def find (d : Disk) (text : String) : Except SystemError Node :=
  match d.locate text with
  | .ok (.found _ node) => .ok node
  | .ok (.absent _) => .error .missing
  | .error e => .error e

/-- Does a text lead to something? -/
def contains (d : Disk) (text : String) : Bool := (d.find text).toBool

/-! ## Reading -/

/-- The content of a file. -/
def read (d : Disk) (text : String) : Except SystemError ByteArray :=
  match d.find text with
  | .error e => .error e
  | .ok .directory => .error .isDirectory
  | .ok (.file content) => .ok content
  | .ok .sink => .ok ByteArray.empty
  | .ok (.program _) => .ok ByteArray.empty

/-- Reads a file of text, or says why that cannot be done. -/
def readText (d : Disk) (text : String) : Except SystemError String :=
  match d.read text with
  | .error e => .error e
  | .ok content =>
    match Text.readUtf8? content.toList with
    | some s => .ok s
    | none => .error .notText

/-! ## Writing -/

/-- Puts something at a path. -/
def put (d : Disk) (path : Path) (node : Node) : Disk :=
  { d with nodes := (path, node) :: d.nodes.filter fun n => n.1 ≠ path }

/-- What was put at a path is found there. -/
theorem node?_put_self (d : Disk) {path : Path} (h : path ≠ []) (node : Node) :
    (d.put path node).node? path = some node := by
  simp [put, node?, h]

/-- Takes away what is at a path. -/
def remove (d : Disk) (path : Path) : Disk :=
  { d with nodes := d.nodes.filter fun n => n.1 ≠ path }

/-- Is there nothing in a directory? -/
def isEmptyDirectory (d : Disk) (path : Path) : Bool :=
  d.nodes.all fun n => !(n.1.dropLast = path && n.1 ≠ path)

/-- Makes the directories that a path leads through. -/
def makeParents (d : Disk) (path : Path) : Disk :=
  (List.range path.length).foldl
    (fun d n =>
      let parent := path.take n
      if parent.isEmpty || (d.node? parent).isSome then d else d.put parent .directory)
    d

/-- Puts something where a text leads to, with the directories on the way. -/
def place (d : Disk) (text : String) (node : Node) : Disk :=
  let path := Path.ofText d.directory text
  (d.makeParents path).put path node

/-- Writes a file, with the directories on the way. -/
def write (d : Disk) (text : String) (content : ByteArray) : Disk := d.place text (.file content)

/-- Writes a file of text, with the directories on the way. -/
def writeText (d : Disk) (text content : String) : Disk := d.write text content.toUTF8

/-- The file that a text leads to, made if it is missing and emptied if that is asked for. A sink
is no path. -/
def openFile (d : Disk) (text : String) (emptied : Bool) :
    Except SystemError (Disk × Option Path) :=
  match d.locate text with
  | .error e => .error e
  | .ok (.found _ .directory) => .error .isDirectory
  | .ok (.found _ .sink) => .ok (d, none)
  | .ok (.found path _) =>
    .ok (if emptied then d.put path (.file ByteArray.empty) else d, some path)
  | .ok (.absent path) => .ok (d.put path (.file ByteArray.empty), some path)

/-- Adds to the end of the file at a path. -/
def append (d : Disk) (path : Path) (content : ByteArray) : Disk :=
  match d.node? path with
  | some (.file before) => d.put path (.file (before ++ content))
  | _ => d

/-- Replaces the content of a file. -/
def replace (d : Disk) (text : String) (content : ByteArray) : Except SystemError Disk :=
  match d.openFile text true with
  | .error e => .error e
  | .ok (d, some path) => .ok (d.append path content)
  | .ok (d, none) => .ok d

/-! ## Programs -/

/-- The directories in which programs without a slash in their names are looked for. -/
def programDirectories : List Path := [["usr", "local", "bin"], ["usr", "bin"], ["bin"]]

/-- The program that a text leads to. -/
def executable (d : Disk) (text : String) : Except SystemError Program :=
  match d.find text with
  | .error e => .error e
  | .ok (.program p) => .ok p
  | .ok _ => .error .forbidden

/-- The program with a given name. A name without a slash is looked for in some directories. -/
def program (d : Disk) (name : String) : Except SystemError Program :=
  if name.contains '/' then d.executable name
  else if name.isEmpty then .error .missing
  else if Path.nameLimit < name.utf8ByteSize then .error .nameTooLong
  else if name = "." ∨ name = ".." then .error .forbidden
  else
    match programDirectories.findSome? fun path => d.nodes.lookup (path ++ [name]) with
    | some (.program p) => .ok p
    | some _ => .error .forbidden
    | none => .error .missing

end Disk

end SolverPortfolio

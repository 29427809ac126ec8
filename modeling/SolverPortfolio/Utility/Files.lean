import SolverPortfolio.Utility.Basic

/-
# Utilities for files

Copying, moving, removing and making files and directories.

Main definitions: `Files.copy`, `Files.move`, `Files.remove`,
`Files.makeDirectories`, `Files.removeDirectories`, `Files.touch`.
-/

namespace SolverPortfolio.Files

/-! ## Names -/

/-- A name as complaints show it. -/
def shown (path : Octets) : String := s!"'{Octets.toText path}'"

/-- The last name of a path. -/
def lastName (path : Octets) : Octets :=
  match Text.dropEnd (· = '/') path with
  | [] => path.take 1
  | kept => ((Text.splitOn '/' kept).getLast?).getD []

/-- A path without its last name. -/
def parent (path : Octets) : Octets :=
  let kept := Text.dropEnd (· = '/') path
  if kept.isEmpty then (if path.isEmpty then ['.'] else ['/'])
  else if !kept.contains '/' then ['.']
  else
    match Text.dropEnd (· = '/') (kept.reverse.dropWhile (· ≠ '/')).reverse with
    | [] => ['/']
    | kept => kept

/-- Does a path lead to a directory? -/
def isDirectory (disk : Disk) (path : Octets) : Bool :=
  match disk.find (Octets.toText path) with
  | .ok .directory => true
  | _ => false

/-! ## Doing something to several files -/

/-- The words for a failure of a utility. -/
def complaint (utility what : String) (path : Octets) (e : SystemError) : String :=
  s!"{utility}: {what} {shown path}: {e.words}"

/-- Changes files one after another; files that cannot be changed are left out. -/
def changeAll (disk : Disk) (f : Disk → Octets → Except String Disk) (paths : List Octets) : Deed :=
  let (disk, complaints) := paths.foldl
    (fun (disk, complaints) path =>
      match f disk path with
      | .ok disk => (disk, complaints)
      | .error complaint => (disk, complaints ++ [complaint]))
    ((disk, []) : Disk × List String)
  .change disk ⟨[], complaints, if complaints.isEmpty then 0 else 1⟩

/-- The complaint about an operand that is missing. -/
def missingOperand (utility : String) : Deed :=
  .finish ⟨[], [s!"{utility}: missing file operand",
    s!"Try '{utility} --help' for more information."], 1⟩

/-! ## Copying -/

/-- Copies what is at and below a path to another path. -/
def copyTree (disk : Disk) (source target : Path) : Disk :=
  disk.nodes.reverse.foldl
    (fun disk node =>
      if source.isPrefixOf node.1 then disk.put (target ++ node.1.drop source.length) node.2
      else disk)
    disk

/-- The copy of a file. -/
def copied (node : Node) : Node :=
  match node with
  | .sink => .file ByteArray.empty
  | node => node

/-- Copies a file, or a directory if that is asked for. -/
def copyOne (recursive : Bool) (target : Octets) (disk : Disk) (source : Octets) :
    Except String Disk :=
  match disk.locate (Octets.toText source) with
  | .error e => .error (complaint "cp" "cannot stat" source e)
  | .ok (.absent _) => .error (complaint "cp" "cannot stat" source .missing)
  | .ok (.found path node) =>
    match node with
    | .directory =>
      if !recursive then .error s!"cp: -r not specified; omitting directory {shown source}"
      else
        match disk.locate (Octets.toText target) with
        | .error e => .error (complaint "cp" "cannot create directory" target e)
        | .ok (.found other _) => .ok (copyTree disk path other)
        | .ok (.absent other) => .ok (copyTree disk path other)
    | node =>
      match disk.locate (Octets.toText target) with
      | .ok (.found other _) =>
        if other = path then
          .error s!"cp: {shown source} and {shown target} are the same file"
        else
          match disk.openFile (Octets.toText target) true with
          | .error e => .error (complaint "cp" "cannot create regular file" target e)
          | .ok (disk, none) => .ok disk
          | .ok (disk, some other) => .ok (disk.put other (copied node))
      | .ok (.absent other) => .ok (disk.put other (copied node))
      | .error .notDirectory => .error (complaint "cp" "failed to access" target .notDirectory)
      | .error e => .error (complaint "cp" "cannot create regular file" target e)

/-- The operands of a utility that brings files to a target, or what it says if some are missing. -/
def operands (utility : String) (paths : List Octets) : Except Deed (List Octets × Octets) :=
  match paths with
  | [] => .error (missingOperand utility)
  | [path] =>
    .error (.finish ⟨[], [s!"{utility}: missing destination file operand after {shown path}",
      s!"Try '{utility} --help' for more information."], 1⟩)
  | _ => .ok (paths.dropLast, (paths.getLast?).getD [])

/-- Brings files to a target, or into it if it is a directory. -/
def bring (utility : String) (disk : Disk) (paths : List Octets)
    (one : Octets → Disk → Octets → Except String Disk) : Deed :=
  match operands utility paths with
  | .error deed => deed
  | .ok (sources, target) =>
    if isDirectory disk target then
      changeAll disk
        (fun disk source => one (target ++ '/' :: lastName source) disk source) sources
    else
      match sources with
      | [source] => changeAll disk (one target) [source]
      | _ =>
        let words := SystemError.notDirectory.words
        .finish (.fail 1 s!"{utility}: target {shown target}: {words}")

/-- Copies files. -/
def copy (disk : Disk) (options : List (Char × Octets)) (paths : List Octets) : Deed :=
  let recursive := hasOption options 'r' || hasOption options 'R' || hasOption options 'a'
  bring "cp" disk paths (copyOne recursive)

/-! ## Moving and removing -/

/-- Removes what is at and below a path. -/
def removeTree (disk : Disk) (path : Path) : Disk :=
  { disk with nodes := disk.nodes.filter fun node => !path.isPrefixOf node.1 }

/-- Moves a file or directory. -/
def moveOne (target : Octets) (disk : Disk) (source : Octets) : Except String Disk :=
  match disk.locate (Octets.toText source) with
  | .error e => .error (complaint "mv" "cannot stat" source e)
  | .ok (.absent _) => .error (complaint "mv" "cannot stat" source .missing)
  | .ok (.found path _) =>
    let brought (other : Path) : Disk := copyTree (removeTree disk other) path other
    match disk.locate (Octets.toText target) with
    | .error e =>
      .error s!"mv: cannot move {shown source} to {shown target}: {e.words}"
    | .ok (.found other _) =>
      if other = path then .error s!"mv: {shown source} and {shown target} are the same file"
      else .ok (removeTree (brought other) path)
    | .ok (.absent other) => .ok (removeTree (brought other) path)

/-- Moves files. -/
def move (disk : Disk) (paths : List Octets) : Deed := bring "mv" disk paths moveOne

/-- Removes a file, or a directory if that is asked for. -/
def removeOne (recursive forced : Bool) (disk : Disk) (source : Octets) : Except String Disk :=
  match disk.locate (Octets.toText source) with
  | .error e =>
    if forced && e = .missing then .ok disk else .error (complaint "rm" "cannot remove" source e)
  | .ok (.absent _) =>
    if forced then .ok disk else .error (complaint "rm" "cannot remove" source .missing)
  | .ok (.found path .directory) =>
    if recursive then .ok (removeTree disk path)
    else .error (complaint "rm" "cannot remove" source .isDirectory)
  | .ok (.found path _) => .ok (disk.remove path)

/-- Removes files. -/
def remove (disk : Disk) (options : List (Char × Octets)) (paths : List Octets) : Deed :=
  let recursive := hasOption options 'r' || hasOption options 'R'
  let forced := hasOption options 'f'
  if paths.isEmpty && !forced then
    .finish ⟨[], ["rm: missing operand", "Try 'rm --help' for more information."], 1⟩
  else changeAll disk (removeOne recursive forced) paths

/-! ## Directories -/

/-- Makes a directory. -/
def makeDirectory (parents : Bool) (disk : Disk) (path : Octets) : Except String Disk :=
  let refuse := fun e => complaint "mkdir" "cannot create directory" path e
  match disk.locate (Octets.toText (Text.dropEnd (· = '/') path)) with
  | .ok (.absent path) => .ok (disk.put path .directory)
  | .ok (.found _ .directory) => if parents then .ok disk else .error (refuse .taken)
  | .ok (.found _ _) => .error (refuse .taken)
  | .error .missing =>
    if parents && !path.isEmpty then .ok (disk.place (Octets.toText path) .directory)
    else .error (refuse .missing)
  | .error e => .error (refuse e)

/-- Makes directories. -/
def makeDirectories (disk : Disk) (options : List (Char × Octets)) (paths : List Octets) : Deed :=
  if paths.isEmpty then
    .finish ⟨[], ["mkdir: missing operand", "Try 'mkdir --help' for more information."], 1⟩
  else changeAll disk (makeDirectory (hasOption options 'p')) paths

/-- Removes an empty directory. -/
def removeDirectory (disk : Disk) (path : Octets) : Except String Disk :=
  let refuse := fun e => complaint "rmdir" "failed to remove" path e
  match disk.locate (Octets.toText path) with
  | .error e => .error (refuse e)
  | .ok (.absent _) => .error (refuse .missing)
  | .ok (.found found .directory) =>
    if disk.isEmptyDirectory found then .ok (disk.remove found) else .error (refuse .notEmpty)
  | .ok (.found _ _) => .error (refuse .notDirectory)

/-- Removes empty directories. -/
def removeDirectories (disk : Disk) (paths : List Octets) : Deed :=
  changeAll disk removeDirectory paths

/-- Makes files that are missing. -/
def touch (disk : Disk) (paths : List Octets) : Deed :=
  changeAll disk
    (fun disk path =>
      match disk.openFile (Octets.toText path) false with
      | .ok (disk, _) => .ok disk
      | .error .isDirectory => .ok disk
      | .error e => .error (complaint "touch" "cannot touch" path e))
    paths

end SolverPortfolio.Files

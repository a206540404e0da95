import Abbrev.Text.Lines
import Abbrev.Text.Quoted

/-!
# Files

The command reads one file, which is named by a path. A path is followed name by name through a tree
of directories, and what is wrong with it is found at the first name that leads nowhere
(`FileTree.follow`). A path that begins with a slash starts at the root, and any other one in the
working directory.
-/

namespace Abbrev

/-- What is wrong with a path. -/
inductive PathFault where
  | notFound
  /-- A file is meant, and the path leads to a directory. -/
  | isDirectory
  /-- The path goes on behind a file. -/
  | notADirectory
  | nameTooLong
  | denied
  deriving DecidableEq, Repr

namespace PathFault

/-- The number of a fault. -/
def number : PathFault → Nat
  | notFound => 2
  | denied => 13
  | notADirectory => 20
  | isDirectory => 21
  | nameTooLong => 36

/-- The wording of a fault. -/
def wording : PathFault → String
  | notFound => "No such file or directory"
  | denied => "Permission denied"
  | notADirectory => "Not a directory"
  | isDirectory => "Is a directory"
  | nameTooLong => "File name too long"

end PathFault

/-- Why a file cannot be read. -/
inductive FileError where
  /-- Something is wrong with the path, which is given in its simplest spelling. -/
  | fault (cause : PathFault) (path : Text)
  /-- The path holds U+0000. -/
  | nullInPath
  deriving DecidableEq, Repr

/-- The wording of an error. -/
def FileError.message : FileError → String
  | .fault cause path => s!"[Errno {cause.number}] {cause.wording}: {(Text.quoted path).str}"
  | .nullInPath => "embedded null byte"

namespace FilePath

/-- The name that leads to the directory above. -/
def above : Text := ['.', '.']

/-- The names of a path, without those that lead nowhere. -/
def names (path : Text) : List Text :=
  (Text.splitAt '/' path).filter fun name => name ≠ [] && name ≠ ['.']

/-- A path in its simplest spelling. Two slashes at the start are kept, and more are one. -/
def simplest (path : Text) : Text :=
  let root := match path with
    | '/' :: '/' :: '/' :: _ => ['/']
    | '/' :: '/' :: _ => ['/', '/']
    | '/' :: _ => ['/']
    | _ => []
  match root ++ Text.join ['/'] (names path) with
  | [] => ['.']
  | path => path

/-- Whether a path starts at the root. -/
def isAbsolute (path : Text) : Bool :=
  path.head? == some '/'

/-- The number of bytes of a text. -/
def size (t : Text) : Nat :=
  t.foldl (fun bytes c => bytes + c.utf8Size) 0

/-- The most bytes that a name may have. -/
def nameLimit : Nat := 255

/-- The most bytes that a path may have. -/
def pathLimit : Nat := 4095

end FilePath

/-- What a path can lead to. -/
inductive FileEntry where
  | file (text : Text)
  | directory
  deriving DecidableEq, Repr

/-- Files and directories by the names that lead to them; the first of equal ones counts. -/
structure FileTree where
  /-- Whether the top is the root, above which there is nothing. -/
  isRoot : Bool
  entries : List (List Text × FileEntry)

namespace FileTree

/-- The tree with one more file, and with the directories that lead to it. -/
def insert (tree : FileTree) (path text : Text) : FileTree :=
  { tree with entries := (FilePath.names path, .file text) :: tree.entries }

/-- What stands at a place. The top is a directory, and so is all that is above it. -/
def entry? (tree : FileTree) (place : List Text) : Option FileEntry :=
  if place.all (· == FilePath.above) then some .directory
  else
    match tree.entries.lookup place with
    | some entry => some entry
    | none =>
      if tree.entries.any fun entry => place.isPrefixOf entry.1 then some .directory else none

/-- The place that a name leads to from a directory. -/
def step (tree : FileTree) (place : List Text) (name : Text) : List Text :=
  if name = FilePath.above then
    if !place.all (· == FilePath.above) then place.dropLast
    else if tree.isRoot then [] else place ++ [FilePath.above]
  else place ++ [name]

/-- Follows names from a place where `entry` stands. -/
def follow (tree : FileTree) (place : List Text) (entry : FileEntry) :
    List Text → Except PathFault FileEntry
  | [] => .ok entry
  | name :: more =>
    match entry with
    | .file _ => .error .notADirectory
    | .directory =>
      if FilePath.nameLimit < FilePath.size name then .error .nameTooLong
      else
        match tree.entry? (tree.step place name) with
        | none => .error .notFound
        | some next => tree.follow (tree.step place name) next more

/-- The text of the file that a path leads to. -/
def textOf (tree : FileTree) (path : Text) : Except PathFault Text :=
  if FilePath.pathLimit < FilePath.size path then .error .nameTooLong
  else
    match tree.follow [] .directory (FilePath.names path) with
    | .error fault => .error fault
    | .ok .directory => .error .isDirectory
    | .ok (.file text) => .ok text

end FileTree

/-- The files that a command can read. -/
structure FileSystem where
  working : FileTree
  root : FileTree

/-- The text of the file that a path leads to. -/
def FileSystem.read (files : FileSystem) (path : Text) : Except FileError Text :=
  if path.contains '\x00' then .error .nullInPath
  else
    let path := FilePath.simplest path
    let tree := if FilePath.isAbsolute path then files.root else files.working
    match tree.textOf path with
    | .error cause => .error (.fault cause path)
    | .ok text => .ok text

end Abbrev

/-!
This module contains file trees held in memory: how a path leads through directories, and why it may
not lead to a text.
-/

namespace Narrative

/--
A file, with its text if it is one, or a directory with its entries.
-/
inductive FileTree where
  | file (text : Option String)
  | directory (entries : List (String × FileTree))

/--
Why a path cannot be followed or its file not be read. Only `missing` says that nothing is there.
-/
inductive PathError where
  | missing
  | notADirectory
  | isADirectory
  | badName
  | notText
  deriving DecidableEq, Repr

/--
The message of a path that cannot be followed or read.
-/
def PathError.message : PathError → String
  | .missing => "no such file or directory"
  | .notADirectory => "not a directory"
  | .isADirectory => "is a directory"
  | .badName => "not the name of a file"
  | .notText => "the file is not UTF-8 text"

/--
The path that leads from a directory on along another path. An absolute path stands alone.
-/
def joinPath (base path : String) : String :=
  if path.toList.head? == some '/' || base.isEmpty then
    path
  else if base.toList.getLast? == some '/' then
    base ++ path
  else
    base ++ "/" ++ path

def splitAtSlash : List Char → List (List Char)
  | [] => [[]]
  | c :: rest =>
    if c == '/' then
      [] :: splitAtSlash rest
    else
      match splitAtSlash rest with
      | [] => [[c]]
      | first :: others => (c :: first) :: others

namespace FileTree

/--
The names along a path, without the empty ones. A separator at the end stands for one more step that
stays where it is, which only a directory allows.
-/
def names (path : String) : List String :=
  let named := ((splitAtSlash path.toList).filter (!·.isEmpty)).map String.ofList
  if path.toList.getLast? == some '/' then named ++ ["."] else named

example : names "./a//b" = [".", "a", "b"] ∧ names "a/" = ["a", "."] := by
  decide +kernel

/--
The node that names lead to. `above` holds the directories on the way, the nearest first; nothing lies
above the root.
-/
def follow (node : FileTree) (above : List FileTree) : List String → Except PathError FileTree
  | [] => .ok node
  | name :: rest =>
    match node with
    | .file _ => .error .notADirectory
    | .directory entries =>
      if name = "." then
        node.follow above rest
      else if name = ".." then
        match above with
        | [] => node.follow [] rest
        | parent :: further => parent.follow further rest
      else if 255 < name.utf8ByteSize then
        .error .badName
      else
        match entries.lookup name with
        | none => .error .missing
        | some next => next.follow (node :: above) rest

/--
Replace an entry of a directory, or put it behind the others.
-/
def setEntry (name : String) (node : FileTree) : List (String × FileTree) → List (String × FileTree)
  | [] => [(name, node)]
  | (other, held) :: rest =>
    if other = name then (name, node) :: rest else (other, held) :: setEntry name node rest

/--
Put a node at the end of a path of names. Directories on the way are made where they are missing.
-/
def put (tree node : FileTree) : List String → FileTree
  | [] => node
  | name :: rest =>
    let entries :=
      match tree with
      | .directory entries => entries
      | .file _ => []
    let held := (entries.lookup name).getD (.directory [])
    .directory (setEntry name (held.put node rest) entries)

/--
Names along a path without detours: `.` stays where it is, and `..` takes back the name before it.
-/
def straighten (path : List String) : List String :=
  path.foldl step []
where
  step (before : List String) (name : String) : List String :=
    if name = "." then before else if name = ".." then before.dropLast else before ++ [name]

end FileTree

/--
A file tree and the names that lead to the directory in which relative paths begin.
-/
structure FileSystem where
  root : FileTree
  working : List String

namespace FileSystem

def namesOf (fs : FileSystem) (path : String) : List String :=
  if path.toList.head? == some '/' then
    FileTree.names path
  else
    fs.working ++ FileTree.names path

def find (fs : FileSystem) (path : String) : Except PathError FileTree :=
  if path.toList.contains '\x00' || 4095 < path.utf8ByteSize then
    .error .badName
  else if path.isEmpty then
    .error .missing
  else
    fs.root.follow [] (fs.namesOf path)

/--
The text of the file that a path leads to.
-/
def readText (fs : FileSystem) (path : String) : Except PathError String := do
  match ← fs.find path with
  | .file (some text) => return text
  | .file none => throw .notText
  | .directory _ => throw .isADirectory

def isDirectory (fs : FileSystem) (path : String) : Bool :=
  match fs.find path with
  | .ok (.directory _) => true
  | _ => false

/--
The names in the directory that a path leads to.
-/
def list (fs : FileSystem) (path : String) : Except PathError (List String) := do
  match ← fs.find path with
  | .directory entries => return entries.map (·.1)
  | .file _ => throw .notADirectory

def put (fs : FileSystem) (path : String) (node : FileTree) : FileSystem :=
  { fs with root := fs.root.put node (FileTree.straighten (fs.namesOf path)) }

end FileSystem

end Narrative

import Narrative.Terminal.Lint
import Narrative.Terminal.Play

/-!
This module contains the program: it reads the files that a tool needs into memory, runs the tool, and
passes on what it writes. The first argument names the tool, `play` or `chapter_linter`.
-/

namespace Narrative.Main

open Terminal

/--
Read a file, or a directory with what lies in it down to the given depth. `above` holds the directories
on the way: one that leads back to them is left empty there. An entry that cannot be read has no text.
-/
def snapshot (above : List String) (path : String) : (depth : Nat) → IO FileTree
  | 0 => return .directory []
  | depth + 1 => do
    let here ← IO.FS.realPath path
    if above.contains here.toString then
      return .directory []
    else if ← here.isDir then
      let entries ← here.readDir
      let nodes ← entries.toList.mapM fun entry => do
        let entryPath := joinPath path entry.fileName
        try
          return (entry.fileName, ← snapshot (here.toString :: above) entryPath depth)
        catch _ =>
          return (entry.fileName, .file none)
      return .directory nodes
    else
      return .file (String.fromUTF8? (← IO.FS.readBinFile path))

/--
The depth down to which the stores of a directory are read. No path has more names than that.
-/
def storeDepth : Nat := 2048

/--
Add the directories on the way of a path that leads somewhere.
-/
def addDirectories (files : FileSystem) (path : String) : FileSystem :=
  let names := files.namesOf path
  (List.range names.length).foldl
    (fun files length =>
      let way := names.take length
      match files.root.follow [] way with
      | .ok _ => files
      | .error _ =>
        { files with root := files.root.put (.directory []) (FileTree.straighten way) })
    files

/--
Add what a path leads to, if anything does, down to the given depth.
-/
def addPath (depth : Nat) (files : FileSystem) (path : String) : IO FileSystem := do
  try
    let node ← snapshot [] path depth
    return (addDirectories files path).put path node
  catch _ =>
    return files

def leadsToDirectory (path : String) : IO Bool := do
  try
    (← IO.FS.realPath path).isDir
  catch _ =>
    return false

/--
Add the directory of a tool with its two stores.
-/
def addContent (files : FileSystem) (path : String) : IO FileSystem := do
  if ← leadsToDirectory path then
    let files := (addDirectories files path).put path (.directory [])
    let stores := [ContentKind.chapter, ContentKind.ending].map (joinPath path ·.directory)
    stores.foldlM (addPath storeDepth) files
  else
    addPath 1 files path

/--
The files that the arguments of a tool name: its directory, and what stands behind `--config`.
-/
def loadFiles (args : List String) : IO FileSystem := do
  let working := FileTree.names (← IO.currentDir).toString
  let bare : FileSystem := { root := FileTree.directory [], working := working }
  let files := bare.put "." (.directory [])
  let files ← args.head?.toList.foldlM addContent files
  (Terminal.Lint.configPath? args.tail).toList.foldlM (addPath 1) files

def finish (output : Output) : IO UInt32 := do
  IO.print output.stdout
  IO.eprint output.stderr
  return UInt32.ofNat output.code

/--
Read commands and carry them out until the player is done.
-/
partial def interact (s : Session) : IO Unit := do
  IO.print Play.prompt
  (← IO.getStdout).flush
  let input ←
    try
      (← IO.getStdin).getLine
    catch _ =>
      return
  if !input.isEmpty then
    let (next, text) := Play.step s input
    IO.print text
    if let some s := next then
      interact s

def play (args : List String) : IO UInt32 := do
  match Play.begin args (← loadFiles args) with
  | .error output => finish output
  | .ok (s, text) =>
    IO.print text
    interact s
    return 0

def lint (args : List String) : IO UInt32 := do
  finish (Terminal.Lint.run args (← loadFiles args))

end Narrative.Main

def main : List String → IO UInt32
  | "play" :: args => Narrative.Main.play args
  | "chapter_linter" :: args => Narrative.Main.lint args
  | _ => do
    IO.eprintln "Usage: (play | chapter_linter) <content_dir> [--config <file>]"
    return 1

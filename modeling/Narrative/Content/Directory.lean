import Narrative.Content.Basic
import Narrative.FileTree

/-!
This module contains documents in files: a directory with one directory for each store, and in it a file
`<id>.json` for each document.
-/

namespace Narrative

structure ContentDirectory where
  files : FileSystem
  root : String

namespace ContentDirectory

def storePath (directory : ContentDirectory) (kind : ContentKind) : String :=
  joinPath directory.root kind.directory

def path (directory : ContentDirectory) (kind : ContentKind) (id : String) : String :=
  joinPath (directory.storePath kind) (id ++ ".json")

/--
The document of an id in the store of a kind.
-/
def read (directory : ContentDirectory) (kind : ContentKind) (id : String) :
    Except FetchError String :=
  match directory.files.readText (directory.path kind id) with
  | .ok text => .ok text
  | .error .missing => .error (.notFound kind id)
  | .error e => .error (.io (directory.path kind id) e.message)

def source (directory : ContentDirectory) : ContentSource := ⟨directory.read⟩

/--
The id of the document in a file, if the name ends in `.json` with something in front of that.
-/
def idOfName? (name : String) : Option String :=
  let stem := name.toList.take (name.length - 5)
  if Text.endsIn ".json".toList name && !stem.isEmpty then some (String.ofList stem) else none

/--
The ids of the documents in a store, in order. A store that is not there has none.
-/
def ids (directory : ContentDirectory) (kind : ContentKind) : Except FetchError (List String) :=
  let store := directory.storePath kind
  match directory.files.find store with
  | .error _ => .ok []
  | .ok _ =>
    match directory.files.list store with
    | .ok names => .ok ((names.filterMap idOfName?).mergeSort (fun a b => a ≤ b))
    | .error e => .error (.io store e.message)

end ContentDirectory

end Narrative

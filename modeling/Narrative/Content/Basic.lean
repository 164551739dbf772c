import Narrative.Chapter.Basic

/-!
This module contains how documents are asked for: the store that an id belongs to, the request for a
document, and the sources that answer it.
-/

namespace Narrative

/--
The two kinds of documents, each with a store of its own.
-/
inductive ContentKind where
  | chapter
  | ending
  deriving DecidableEq, Repr

namespace ContentKind

def ofId (id : String) : ContentKind :=
  if isEndingId id then .ending else .chapter

def name : ContentKind → String
  | .chapter => "chapter"
  | .ending => "ending"

def directory : ContentKind → String
  | .chapter => "chapters"
  | .ending => "endings"

end ContentKind

def contentPath (id : String) : String :=
  s!"/{(ContentKind.ofId id).directory}/{id}.json"

structure ContentRequest where
  id : String
  kind : ContentKind
  path : String
  deriving DecidableEq, Repr

def ContentRequest.ofId (id : String) : ContentRequest :=
  ⟨id, .ofId id, contentPath id⟩

/--
Why a document cannot be had: the store lacks it, or it cannot be read.
-/
inductive FetchError where
  | notFound (kind : ContentKind) (id : String)
  | io (path reason : String)
  deriving DecidableEq, Repr

def FetchError.message : FetchError → String
  | .notFound kind id => s!"{kind.name} '{id}' not found"
  | .io path reason => s!"IO error reading {path}: {reason}"

/--
Something that documents are read from: a store for each kind. What a store answers depends on nothing but the id.
-/
structure ContentSource where
  read : ContentKind → String → Except FetchError String

/--
The document with an id, from the store that the id belongs to.
-/
def ContentSource.fetch (source : ContentSource) (id : String) : Except FetchError String :=
  source.read (.ofId id) id

end Narrative

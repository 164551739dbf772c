import Narrative.Content.Basic

/-!
This module contains documents held in memory.
-/

namespace Narrative

structure Shelf where
  chapters : Table String
  endings : Table String

namespace Shelf

def empty : Shelf := ⟨.empty, .empty⟩

/--
Put a document into the store that its id belongs to, in place of one with that id.
-/
def insert (shelf : Shelf) (id text : String) : Shelf :=
  match ContentKind.ofId id with
  | .chapter => { shelf with chapters := shelf.chapters.insert id text }
  | .ending => { shelf with endings := shelf.endings.insert id text }

def store (shelf : Shelf) : ContentKind → Table String
  | .chapter => shelf.chapters
  | .ending => shelf.endings

/--
The document of an id in the store of a kind.
-/
def read (shelf : Shelf) (kind : ContentKind) (id : String) : Except FetchError String :=
  match (shelf.store kind).get? id with
  | some text => .ok text
  | none => .error (.notFound kind id)

def source (shelf : Shelf) : ContentSource := ⟨shelf.read⟩

end Shelf

end Narrative

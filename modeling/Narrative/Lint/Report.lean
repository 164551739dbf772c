import Narrative.Chapter.Decoder
import Narrative.Content.Directory
import Narrative.Lint.Chapter

/-!
This module contains the report on a directory of documents: how many could be read, and what is wrong
with them.
-/

namespace Narrative.Lint

/--
A report. Errors and warnings are in the order in which they were found.
-/
structure Report where
  chapters : Nat
  endings : Nat
  errors : List String
  warnings : List String
  deriving DecidableEq, Repr

namespace Report

def empty : Report := ⟨0, 0, [], []⟩

def append (a b : Report) : Report :=
  ⟨a.chapters + b.chapters, a.endings + b.endings, a.errors ++ b.errors, a.warnings ++ b.warnings⟩

instance : Append Report := ⟨append⟩

def error (message : String) : Report :=
  { empty with errors := [message] }

def join (reports : List Report) : Report :=
  reports.foldr append empty

end Report

/--
A document and the failure to fetch or to decode it, told apart.
-/
def document {α : Type} (fetched : Except FetchError String)
    (decode : String → Except DocumentError α) (place : String) : Except String α :=
  match fetched with
  | .error e => .error e.message
  | .ok text => (decode text).mapError (fun e => s!"{place}: {e.message}")

def endingReport (directory : ContentDirectory) (id : String) : Report :=
  match document (directory.read .ending id) Ending.ofText s!"ending '{id}'" with
  | .error message => .error message
  | .ok ending =>
    let misnamed :=
      if ending.id = id then [] else [s!"ending file '{id}' declares id '{ending.id}'"]
    ⟨0, 1, [], misnamed⟩

def chapterReport (directory : ContentDirectory) (config : Config) (known : List String)
    (id : String) : Report :=
  match document (directory.read .chapter id) Chapter.ofText s!"chapter '{id}'" with
  | .error message => .error message
  | .ok chapter =>
    let misnamed :=
      if chapter.id = id then [] else [s!"chapter file '{id}' declares id '{chapter.id}'"]
    let findings := chapterFindings known config chapter
    let messages (isError : Bool) : List String :=
      (findings.filter (·.defect.isError == isError)).map (·.message chapter.id)
    ⟨1, 0, messages true, misnamed ++ messages false⟩

/--
The ids of the documents in a store, and the error where it cannot be listed.
-/
def listing (directory : ContentDirectory) (kind : ContentKind) : List String × Report :=
  match directory.ids kind with
  | .ok ids => (ids, .empty)
  | .error e => ([], .error s!"cannot list {kind.name} documents: {e.message}")

def report (directory : ContentDirectory) (config : Config) : Report :=
  let (chapterIds, chapterListing) := listing directory .chapter
  let (endingIds, endingListing) := listing directory .ending
  let known := chapterIds ++ endingIds
  chapterListing ++ endingListing ++
    .join (endingIds.map (endingReport directory)) ++
    .join (chapterIds.map (chapterReport directory config known))

end Narrative.Lint

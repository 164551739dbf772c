import Narrative.Json.Parser
import Narrative.Json.Printer
import Narrative.Player.Basic

/-!
This module contains the flat JSON form of the player's progress: the five named fields, and beside them
every stat as a field of its own.
-/

namespace Narrative.Player

/--
The names that are taken in the flat form. A stat of such a name cannot be told from the field.
-/
def flatNames : List String :=
  ["currentChapter", "inventory", "revealedChapters", "endings_unlocked", "statuses"]

def listJson (texts : List String) : Json :=
  .array (texts.map .string)

/--
The flat form: the named fields, then the stats.
-/
def toJson (p : Player) : Json :=
  .object <|
    [("currentChapter", .string p.currentChapter),
      ("inventory", listJson p.inventory),
      ("revealedChapters", listJson p.revealed),
      ("endings_unlocked", listJson p.endings),
      ("statuses", .object (p.statuses.entries.map (fun (key, value) => (key, .string value))))] ++
    p.stats.entries.map (fun (name, value) => (name, .number (.int value.toInt)))

def toText (p : Player) : String :=
  p.toJson.text

def texts? : Json → Option (List String)
  | .array items => items.mapM Json.string?
  | _ => none

/--
The fields with their values read, if all of them can be.
-/
def readFields? {α : Type} (read : Json → Option α) (fields : List (String × Json)) :
    Option (List (String × α)) :=
  fields.mapM (fun (name, value) => (read value).map (name, ·))

/--
The statuses of a JSON object of texts; of several under one key the last stays.
-/
def statuses? : Json → Option (Table String)
  | .object fields => (readFields? Json.string? fields).map .ofList
  | _ => none

/--
The value of a named field, which may stand there once.
-/
def named? (name : String) (fields : List (String × Json)) : Option (Option Json) :=
  match fields.filter (·.1 == name) with
  | [] => some none
  | [(_, value)] => some (some value)
  | _ => none

def optional? {α : Type} (name : String) (fields : List (String × Json)) (read : Json → Option α)
    (absent : α) : Option α := do
  match ← named? name fields with
  | some value => read value
  | none => return absent

/--
The stats: every field of another name, an integer; of several under one name the last stays.
-/
def stats? (fields : List (String × Json)) : Option (Table Int64) :=
  let others := fields.filter (fun (name, _) => !flatNames.contains name)
  (readFields? Json.int64? others).map .ofList

/--
The progress of a flat form, as it was written: stats are not clamped. Only the current chapter is
required.
-/
def ofJson? : Json → Option Player
  | .object fields => do
    let some current ← named? "currentChapter" fields | none
    return {
      currentChapter := ← current.string?
      inventory := ← optional? "inventory" fields texts? []
      revealed := ← optional? "revealedChapters" fields texts? []
      endings := ← optional? "endings_unlocked" fields texts? []
      statuses := ← optional? "statuses" fields statuses? .empty
      stats := ← stats? fields }
  | _ => none

def ofText? (text : String) : Option Player :=
  (Json.parseFields? text).bind ofJson?

end Narrative.Player

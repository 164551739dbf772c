import Narrative.Condition.Parser
import Narrative.Effect.Basic

/-!
This module contains the reading of effects from JSON values. Reading never fails: an entry that cannot
be understood becomes an invalid effect with a reason.
-/

namespace Narrative.Effect

mutual

/--
The ids of a value that names one or lists several, at any depth.
-/
def items : Json → Except String (List String)
  | .string s => .ok [s]
  | .array values => itemsOf values
  | other => .error s!"expected item ids, found {other}"

/--
The ids of a list of values, one after the other.
-/
def itemsOf : List Json → Except String (List String)
  | [] => .ok []
  | value :: rest =>
    match items value with
    | .error reason => .error reason
    | .ok found => (itemsOf rest).map (found ++ ·)

end

/--
The effect on the items of a value, invalid where there are none.
-/
def ofItems (make : List String → Effect) (key : String) (value : Json) : Effect :=
  match items value with
  | .ok found => make found
  | .error reason => .invalid key reason

/--
The effect of an inventory operation, an object with an action and items.
-/
def ofOperation (fields : List (String × Json)) : Effect :=
  match (fields.lookup "action").bind Json.string? with
  | some "add" => withItems .addItems
  | some "remove" => withItems .removeItems
  | some other => .invalid "inventory" s!"unknown inventory action '{other}'"
  | none => .invalid "inventory" "inventory operation without an action"
where
  withItems (make : List String → Effect) : Effect :=
    match fields.lookup "items" with
    | some value => ofItems make "inventory" value
    | none => .invalid "inventory" "inventory operation without items"

/--
The effect of a key that changes a status or a stat.
-/
def ofValue (key : String) (value : Json) : Effect :=
  match Condition.isStatusKey key, value with
  | true, .string s => .setStatus key s
  | _, _ =>
    match value.int64? with
    | some delta => .adjust key delta
    | none => .invalid key s!"expected an integer delta, found {value}"

/--
The effect of one entry. Items listed directly under `inventory` are added.
-/
def ofEntry (key : String) (value : Json) : Effect :=
  match key with
  | "inventory" =>
    match value with
    | .object fields => ofOperation fields
    | _ => ofItems .addItems key value
  | "inventory_add" => ofItems .addItems key value
  | "inventory_remove" => ofItems .removeItems key value
  | _ => ofValue key value

/--
The effects of a value, in authored order; `null` has none.
-/
def ofJson : Json → List Effect
  | .null => []
  | .object fields => fields.map (fun (key, value) => ofEntry key value)
  | other => [.invalid "effects" s!"expected an object, found {other}"]

end Narrative.Effect

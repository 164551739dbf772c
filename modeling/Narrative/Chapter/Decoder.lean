import Narrative.Chapter.Basic
import Narrative.Effect.Parser
import Narrative.Json.Parser

/-!
This module contains the decoding of chapters and endings from JSON documents. Conditions and effects
are decoded from any value; every other field has a type, and a document with a field of another type is
refused.
-/

namespace Narrative

inductive DocumentError where
  | parse
  | notAnObject
  | missingFields (names : List String)
  | shape
  deriving DecidableEq, Repr

def DocumentError.message : DocumentError → String
  | .parse => "invalid JSON: the text is not one JSON value"
  | .notAnObject => "document is not a JSON object"
  | .missingFields names => "missing required fields: " ++ ", ".intercalate names
  | .shape => "bad field: a field is missing, of another type or given twice"

namespace Decoder

/--
The fields of a record by name. A record is an object, whose further fields do not matter, or a list of
the fields' values in the order of their names, which may end early.
-/
def record? (names : List String) : Json → Option (String → Option Json)
  | .object fields => some (fun name => fields.lookup name)
  | .array values =>
    if values.length ≤ names.length then
      some (fun name => (names.zip values).lookup name)
    else
      none
  | _ => none

def bool? : Json → Option Bool
  | .bool b => some b
  | _ => none

def float? : Json → Option Float
  | .number (.int n) => some (Decimal.ofInt n)
  | .number (.double x) => some x
  | _ => none

def list? {α : Type} (read : Json → Option α) : Json → Option (List α)
  | .array items => items.mapM read
  | _ => none

/--
The fields of an object whose values can all be read.
-/
def entries? {α : Type} (read : Json → Option α) : Json → Option (List (String × α))
  | .object fields => fields.mapM (fun (name, value) => (read value).map (name, ·))
  | _ => none

def nullable? {α : Type} (read : Json → Option α) : Json → Option (Option α)
  | .null => some none
  | value => (read value).map some

def required? {α : Type} (read : Json → Option α) (value : Option Json) : Option α :=
  value.bind read

def withDefault? {α : Type} (default : α) (read : Json → Option α) (value : Option Json) :
    Option α :=
  match value with
  | some value => read value
  | none => some default

def optionalText? (value : Option Json) : Option (Option String) :=
  withDefault? none (nullable? Json.string?) value

def condition (value : Option Json) : Condition :=
  (value.map Condition.ofJson).getD .always

def effects (value : Option Json) : List Effect :=
  (value.map Effect.ofJson).getD []

def choiceFields : List String :=
  ["id", "text", "requires", "hidden", "effects", "next", "reveal", "timeout", "characters", "arc"]

/--
The requirement of a choice, which has two names but may be given once.
-/
def requirement? (field : String → Option Json) : Option (Option Json) :=
  match field "requires", field "requirements" with
  | some _, some _ => none
  | some value, none => some (some value)
  | none, value => some value

def choice? (j : Json) : Option Choice := do
  let field ← record? choiceFields j
  let requirement ← requirement? field
  return {
    id := ← optionalText? (field "id")
    text := ← withDefault? "" Json.string? (field "text")
    requires := condition requirement
    hidden := ← withDefault? false bool? (field "hidden")
    effects := effects (field "effects")
    next := ← optionalText? (field "next")
    reveal := ← optionalText? (field "reveal")
    timeout := ← withDefault? none (nullable? float?) (field "timeout")
    characters := ← withDefault? [] (list? Json.string?) (field "characters")
    arc := ← optionalText? (field "arc") }

/--
Take a field out of an object. The last field moves into its place.
-/
def swapRemove (name : String) : List (String × Json) → List (String × Json)
  | [] => []
  | (other, value) :: rest =>
    if other = name then
      match rest.getLast? with
      | none => []
      | some last => last :: rest.dropLast
    else
      (other, value) :: swapRemove name rest

/--
A trigger: the field `default` of an object, and the condition that its other fields make up.
-/
def trigger : Json → Trigger
  | .object fields =>
    match fields.lookup "default" with
    | some flag =>
      ⟨(bool? flag).getD false, Condition.ofJson (.object (swapRemove "default" fields))⟩
    | none => ⟨false, Condition.ofJson (.object fields)⟩
  | value => ⟨false, Condition.ofJson value⟩

def variant? (j : Json) : Option Variant := do
  let field ← record? ["trigger", "title", "text", "background", "choices", "default_next"] j
  return {
    trigger := ((field "trigger").map trigger).getD {}
    title := ← optionalText? (field "title")
    text := ← optionalText? (field "text")
    background := ← optionalText? (field "background")
    choices := ← withDefault? none (nullable? (list? choice?)) (field "choices")
    defaultNext := ← optionalText? (field "default_next") }

/--
The effect of a spell whose kind is given, with the fields of that kind.
-/
def spellEffectOf? (kind : String) (fields : List String → Option (String → Option Json)) :
    Option SpellEffect :=
  match kind with
  | "faction_reaction" => do
    let field ← fields ["faction", "action"]
    return .factionReaction (← required? Json.string? (field "faction"))
      (← optionalText? (field "action"))
  | "stat_change" => do
    let field ← fields ["target", "value"]
    return .statChange (← required? Json.string? (field "target"))
      (← required? Json.int64? (field "value"))
  | _ => (fields []).map (fun _ => .unknown)

/--
An effect of a spell: an object whose field `type` names the kind, or a list that begins with the kind.
-/
def spellEffect? : Json → Option SpellEffect
  | .object fields => do
    let kind ← required? Json.string? (fields.lookup "type")
    spellEffectOf? kind (fun names => record? names (.object fields))
  | .array (.string kind :: values) => spellEffectOf? kind (fun names => record? names (.array values))
  | _ => none

def spell? (j : Json) : Option Spell := do
  let field ← record? ["name", "element", "skill", "threshold", "effects", "requires"] j
  return {
    name := ← optionalText? (field "name")
    element := ← required? Json.string? (field "element")
    skill := ← required? Json.string? (field "skill")
    threshold := ← required? float? (field "threshold")
    effects := ← withDefault? [] (list? spellEffect?) (field "effects")
    requires := condition (field "requires") }

def response? (j : Json) : Option FactionResponse :=
  j.string?.map fun
    | "send_zealots" => .sendZealots
    | "burn_forest" => .burnForest
    | token => .unrecognized token

/--
A strategy. One without a condition never applies.
-/
def strategy? (j : Json) : Option Strategy := do
  let field ← record? ["if", "then"] j
  return {
    condition :=
      ((field "if").map Condition.ofRequired).getD (.malformed "strategy has no 'if' condition")
    responses := ← withDefault? [] (list? response?) (field "then") }

/--
A faction: its strategy, if it has one.
-/
def faction? (j : Json) : Option (Option Strategy) := do
  let field ← record? ["strategy"] j
  withDefault? none (nullable? strategy?) (field "strategy")

def character? (j : Json) : Option Character := do
  let field ← record? ["id", "mood", "sprite", "dialogue", "position"] j
  return {
    id := ← required? Json.string? (field "id")
    mood := ← optionalText? (field "mood")
    sprite := ← optionalText? (field "sprite")
    dialogue := ← optionalText? (field "dialogue")
    position := ← optionalText? (field "position") }

def characters? (j : Json) : Option (List Character) := do
  let field ← record? ["main"] j
  withDefault? [] (list? character?) (field "main")

def interaction? (j : Json) : Option Interaction := do
  let field ← record? ["trigger_arc", "sprite_change", "dialogue", "mood", "effects"] j
  return {
    triggerArc := ← optionalText? (field "trigger_arc")
    spriteChange := ← optionalText? (field "sprite_change")
    dialogue := ← optionalText? (field "dialogue")
    mood := ← optionalText? (field "mood")
    effects := effects (field "effects") }

def onSelect? (j : Json) : Option (Option Interaction) := do
  let field ← record? ["on_select"] j
  withDefault? none (nullable? interaction?) (field "on_select")

def interactions? (j : Json) : Option (List (String × Option Interaction)) := do
  let field ← record? ["character_interactions"] j
  withDefault? [] (entries? onSelect?) (field "character_interactions")

def chapter? (fields : List (String × Json)) : Option Chapter := do
  let field (name : String) := fields.lookup name
  return {
    id := ← required? Json.string? (field "id")
    title := ← optionalText? (field "title")
    text := ← required? Json.string? (field "text")
    background := ← required? Json.string? (field "background")
    choices := ← withDefault? [] (list? choice?) (field "choices")
    variants := ← withDefault? [] (list? variant?) (field "variants")
    spells := ← withDefault? .empty (fun j => (entries? spell? j).map .ofList) (field "spells")
    factions :=
      ← withDefault? .empty (fun j => (entries? faction? j).map .ofList) (field "faction_ai")
    defaultNext := ← optionalText? (field "default_next")
    characters := ← withDefault? [] characters? (field "characters")
    interactions := ← withDefault? [] interactions? (field "dynamic_elements") }

def ending? (fields : List (String × Json)) : Option Ending := do
  let field (name : String) := fields.lookup name
  return {
    id := ← required? Json.string? (field "id")
    title := ← withDefault? "" Json.string? (field "title")
    text := ← required? Json.string? (field "text")
    background := ← required? Json.string? (field "background") }

def requiredFields : List String := ["id", "text", "background"]

def document {α : Type} (read : List (String × Json) → Option α) : Json → Except DocumentError α
  | .object fields =>
    match requiredFields.filter (fun name => (fields.lookup name).isNone) with
    | [] =>
      match read fields with
      | some decoded => .ok decoded
      | none => .error .shape
    | missing => .error (.missingFields missing)
  | _ => .error .notAnObject

def ofText {α : Type} (read : List (String × Json) → Option α) (text : String) :
    Except DocumentError α :=
  match Json.parse? text with
  | some j => document read j
  | none => .error .parse

end Decoder

def Chapter.ofText (text : String) : Except DocumentError Chapter :=
  Decoder.ofText Decoder.chapter? text

def Ending.ofText (text : String) : Except DocumentError Ending :=
  Decoder.ofText Decoder.ending? text

end Narrative

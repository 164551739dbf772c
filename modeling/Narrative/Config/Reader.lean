import Narrative.Config.Basic
import Narrative.Ron.Parser

/-!
This module contains the reading of configurations from RON texts.
-/

namespace Narrative

/--
Why a configuration is refused. `io` is the failure to read its file.
-/
inductive ConfigError where
  | io (reason : String)
  | ron
  | negativeStrength (name : String)
  deriving DecidableEq, Repr

def ConfigError.message : ConfigError → String
  | .io reason => s!"IO error: {reason}"
  | .ron => "RON deserialization error: the text is not a configuration"
  | .negativeStrength name => s!"ley line '{name}' has a negative strength"

namespace Config

/--
Whether a record that may have a name is one of the given name, which may be marked as a name.
-/
def isNamed (name : String) (given : Option String) : Bool :=
  given.all (fun g => g == name || g == Ron.mark name)

/--
The fields of a record whose name, if it has one, is the given one. Each of the known fields may stand
there once; a further field may hold anything.
-/
def fields? (name : String) (known : List String) : Ron → Option (String → Option Ron)
  | .tuple given [] => if isNamed name given then some (fun _ => none) else none
  | .record given fields =>
    let isKnown := fields.filter (fun (key, _) => known.contains key)
    let isFurther := fields.filter (fun (key, _) => !known.contains key)
    if isNamed name given && (isKnown.map (·.1)).Nodup && isFurther.all (·.2.isSound) then
      some (fun key => isKnown.lookup key)
    else
      none
  | _ => none

def text? : Ron → Option String
  | .text s => some s
  | _ => none

def float? : Ron → Option Float
  | .word w => Ron.floatOfWord? w
  | _ => none

def int64? : Ron → Option Int64
  | .word w => Ron.int64OfWord? w
  | _ => none

/--
A map from texts; of several values under one key the last stays.
-/
def table? {α : Type} (read : Ron → Option α) : Ron → Option (Table α)
  | .map entries =>
    (entries.mapM (fun (key, value) => return (← text? key, ← read value))).map Table.ofList
  | _ => none

def withDefault? {α : Type} (default : α) (read : Ron → Option α) (value : Option Ron) : Option α :=
  match value with
  | some value => read value
  | none => some default

def leyLine? (value : Ron) : Option LeyLine := do
  let field ← fields? "LeyLine" ["strength", "alignment"] value
  return {
    strength := ← (field "strength").bind float?
    alignment := ← withDefault? "" text? (field "alignment") }

/--
A configuration. What it leaves out is built in.
-/
def ofRon? (value : Ron) : Option Config := do
  let field ← fields? "EngineConfig"
    ["start_chapter", "fallback_chapter", "continue_label", "ley_lines", "initial_stats"] value
  return {
    startChapter := ← withDefault? builtin.startChapter text? (field "start_chapter")
    fallbackChapter := ← withDefault? builtin.fallbackChapter text? (field "fallback_chapter")
    continueLabel := ← withDefault? builtin.continueLabel text? (field "continue_label")
    leyLines := ← withDefault? builtin.leyLines (table? leyLine?) (field "ley_lines")
    initialStats := ← withDefault? builtin.initialStats (table? int64?) (field "initial_stats") }

/--
The first ley line, in the order of names, with a strength below zero.
-/
def negativeLine? (config : Config) : Option String :=
  (config.leyLines.entries.find? (·.2.strength < 0)).map (·.1)

/--
The configuration of a text. No ley line may have a strength below zero.
-/
def ofText (text : String) : Except ConfigError Config :=
  match (Ron.parse? text).bind ofRon? with
  | none => .error .ron
  | some config =>
    match config.negativeLine? with
    | some name => .error (.negativeStrength name)
    | none => .ok config

end Config

end Narrative

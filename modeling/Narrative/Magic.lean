import Narrative.Chapter.Basic
import Narrative.Config.Basic
import Narrative.Decimal.Binary64

/-!
This module contains the casting of spells and the reactions of factions.
-/

namespace Narrative

inductive MagicError where
  | unknownSpell (name : String)
  | unknownElement (spell element : String)
  deriving DecidableEq, Repr

def MagicError.message : MagicError → String
  | .unknownSpell name => s!"unknown spell: {name}"
  | .unknownElement spell element => s!"unknown ley line '{element}' for spell '{spell}'"

structure CastOutcome where
  power : Float
  succeeded : Bool
  player : Player

structure SpellOption where
  key : String
  name : String
  available : Bool
  deriving DecidableEq, Repr

def FactionResponse.apply (p : Player) : FactionResponse → Player
  | .sendZealots => p.adjust "church_hostility" 10
  | .burnForest => p.adjust "lira_trust" (-5)
  | .unrecognized _ => p

/--
The names that a strategy may use beside the stats: `player_moral` is the stat `moral`.
-/
def strategyBindings (p : Player) : Bindings :=
  Table.empty.insert "player_moral" (p.stat "moral")

/--
Let a faction react if the condition of its strategy holds. The progress is given only if it did.
-/
def Strategy.react? (s : Strategy) (p : Player) : Option Player :=
  if s.condition.holds (strategyBindings p) p then
    some (s.responses.foldl FactionResponse.apply p)
  else
    none

namespace Chapter

def strategy? (chapter : Chapter) (faction : String) : Option Strategy :=
  (chapter.factions.get? faction).join

/--
Let a faction react, if it has a strategy whose condition holds. The progress is given only if it did.
-/
def provoke? (chapter : Chapter) (faction : String) (p : Player) : Option Player :=
  (chapter.strategy? faction).bind (·.react? p)

def applySpellEffect (chapter : Chapter) (p : Player) : SpellEffect → Player
  | .statChange stat delta => p.adjust stat delta
  | .factionReaction faction _ => (chapter.provoke? faction p).getD p
  | .unknown => p

/--
Cast a spell. Its power is the strength of its ley line times the player's skill, and it fails when the
power is at most the threshold. A spell that fails changes nothing.
-/
def cast (chapter : Chapter) (config : Config) (name : String) (p : Player) :
    Except MagicError CastOutcome :=
  match chapter.spells.get? name with
  | none => .error (.unknownSpell name)
  | some spell =>
    match config.leyLines.get? spell.element with
    | none => .error (.unknownElement name spell.element)
    | some line =>
      let power := line.strength * Decimal.ofInt (p.stat spell.skill).toInt
      if power ≤ spell.threshold then
        .ok ⟨power, false, p⟩
      else
        .ok ⟨power, true, spell.effects.foldl chapter.applySpellEffect p⟩

/--
The spells of a chapter, in the order of their keys.
-/
def spellOptions (chapter : Chapter) (p : Player) : List SpellOption :=
  chapter.spells.entries.map fun (key, spell) =>
    ⟨key, spell.name.getD key, spell.requires.met p⟩

end Chapter

end Narrative

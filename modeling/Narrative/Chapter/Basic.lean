import Narrative.Condition.Basic
import Narrative.Effect.Basic

/-!
This module contains chapters and endings: the documents that a story consists of.
-/

namespace Narrative

def endingMark : String := "ending_"

def isEndingId (id : String) : Bool :=
  Text.startsIn endingMark.toList id

/--
The successor that stands for the chapter which the choice reveals.
-/
def revealMark : String := "reveal_chapter"

structure Choice where
  id : Option String := none
  text : String := ""
  requires : Condition := .always
  /-- Whether the choice is left out, not only disabled, while its requirement fails. -/
  hidden : Bool := false
  effects : List Effect := []
  next : Option String := none
  reveal : Option String := none
  /-- The seconds after which the choice is taken on its own. -/
  timeout : Option Float := none
  /-- The main characters who react to the choice. -/
  characters : List String := []
  /-- The arc whose interactions the choice triggers. -/
  arc : Option String := none

/--
Whether a choice has a text, and a successor or effects.
-/
def Choice.isWellFormed (c : Choice) : Bool :=
  !c.text.isEmpty && (c.next.isSome || c.reveal.isSome || !c.effects.isEmpty)

/--
When a variant applies: always, or under a condition.
-/
structure Trigger where
  default : Bool := false
  condition : Condition := .always

def Trigger.isMatch (t : Trigger) (p : Player) : Bool :=
  t.default || t.condition.met p

/--
Content that takes the place of the chapter's own where its trigger matches. What a variant leaves out
is the chapter's.
-/
structure Variant where
  trigger : Trigger
  title : Option String
  text : Option String
  background : Option String
  choices : Option (List Choice)
  defaultNext : Option String

inductive SpellEffect where
  | factionReaction (faction : String) (action : Option String)
  | statChange (stat : String) (delta : Int64)
  | unknown
  deriving DecidableEq, Repr

structure Spell where
  name : Option String
  element : String
  skill : String
  threshold : Float
  effects : List SpellEffect
  requires : Condition

/--
What a faction may do. Further reactions of a document are kept but do nothing.
-/
inductive FactionResponse where
  | sendZealots
  | burnForest
  | unrecognized (token : String)
  deriving DecidableEq, Repr

structure Strategy where
  condition : Condition
  responses : List FactionResponse

structure Character where
  id : String
  mood : Option String
  sprite : Option String
  dialogue : Option String
  position : Option String

/--
What a character does when a choice of its arc is taken.
-/
structure Interaction where
  triggerArc : Option String
  spriteChange : Option String
  dialogue : Option String
  mood : Option String
  effects : List Effect

structure Chapter where
  id : String
  title : Option String
  text : String
  background : String
  choices : List Choice
  variants : List Variant
  spells : Table Spell
  /-- The strategies of the factions that the chapter knows. -/
  factions : Table (Option Strategy)
  defaultNext : Option String
  characters : List Character
  /-- The interactions of characters, in authored order. -/
  interactions : List (String × Option Interaction)

structure Ending where
  id : String
  title : String
  text : String
  background : String

end Narrative

import Narrative.Chapter.Basic

/-!
This module contains how characters react to a choice: the main characters that the choice lists, then
the interactions of its arc.
-/

namespace Narrative

inductive Reaction where
  | spriteChange (character sprite : String)
  | dialogue (speaker text mood position : String)
  deriving DecidableEq, Repr

/--
The reaction of a main character: the sprite of its mood, then its line.
-/
def Character.reactions (c : Character) : List Reaction :=
  let sprite :=
    match c.sprite, c.mood with
    | some sprite, some mood => [.spriteChange c.id s!"{sprite}_{mood}"]
    | _, _ => []
  let line :=
    match c.dialogue with
    | some text => [.dialogue c.id text "neutral" (c.position.getD "center")]
    | none => []
  sprite ++ line

/--
The reaction of a character whose interaction is triggered: its sprite, then its line.
-/
def Interaction.reactions (i : Interaction) (character : String) : List Reaction :=
  let sprite :=
    match i.spriteChange with
    | some sprite => [.spriteChange character sprite]
    | none => []
  let line :=
    match i.dialogue with
    | some text => [.dialogue character text (i.mood.getD "neutral") "center"]
    | none => []
  sprite ++ line

namespace Chapter

/--
The interactions that a choice triggers, with their characters, in authored order.
-/
def triggered (chapter : Chapter) (choice : Choice) : List (String × Interaction) :=
  match choice.arc with
  | none => []
  | some arc =>
    chapter.interactions.filterMap fun (character, interaction) =>
      (interaction.filter (·.triggerArc == some arc)).map (character, ·)

/--
The main characters that a choice lists, as often as it lists them.
-/
def listed (chapter : Chapter) (choice : Choice) : List Character :=
  choice.characters.filterMap (fun id => chapter.characters.find? (·.id == id))

/--
The reactions to a choice, in the order in which they are presented.
-/
def reactions (chapter : Chapter) (choice : Choice) : List Reaction :=
  (chapter.listed choice).flatMap Character.reactions ++
    (chapter.triggered choice).flatMap (fun (character, i) => i.reactions character)

def reactionEffects (chapter : Chapter) (choice : Choice) : List Effect :=
  (chapter.triggered choice).flatMap (fun (_, i) => i.effects)

end Chapter

end Narrative

import Narrative.Chapter.Basic
import Narrative.Config.Basic

/-!
This module contains the static checks of a chapter: choices that lead nowhere, documents that do not
exist, conditions and effects that could not be understood, and names that stand for nothing.
-/

namespace Narrative.Lint

inductive Defect where
  | incomplete
  | noSuccessor
  | revealWithoutTarget
  | unknownDocument (id : String)
  | malformedCondition (reason : String)
  | invalidEffect (problem : String)
  | unknownLeyLine (element : String)
  | unknownFaction (faction : String)
  | unknownSpellEffect
  | unknownResponse (token : String)
  | unlistedCharacter (character : String)
  deriving DecidableEq, Repr

/--
Whether a defect is an error; the others are warnings.
-/
def Defect.isError : Defect → Bool
  | .incomplete => true
  | .noSuccessor => false
  | .revealWithoutTarget => true
  | .unknownDocument _ => true
  | .malformedCondition _ => true
  | .invalidEffect _ => true
  | .unknownLeyLine _ => true
  | .unknownFaction _ => false
  | .unknownSpellEffect => false
  | .unknownResponse _ => false
  | .unlistedCharacter _ => false

/--
The wording of a defect, behind the name of its place.
-/
def Defect.describe : Defect → String
  | .incomplete => "needs text and one of next/reveal/effects"
  | .noSuccessor => "has no successor and cannot be taken"
  | .revealWithoutTarget => "reveals a chapter but names none"
  | .unknownDocument id => s!"leads to unknown document '{id}'"
  | .malformedCondition reason => s!"is malformed: {reason}"
  | .invalidEffect problem => s!"has an invalid effect {problem}"
  | .unknownLeyLine element => s!"uses unknown ley line '{element}'"
  | .unknownFaction faction => s!"provokes faction '{faction}' which has no faction_ai entry"
  | .unknownSpellEffect => "has an effect of unknown type"
  | .unknownResponse token => s!"response '{token}' is not recognised and will be ignored"
  | .unlistedCharacter character => s!"names character '{character}' not listed in characters.main"

/--
A defect and the place of the chapter where it was found.
-/
structure Finding where
  place : String
  defect : Defect
  deriving DecidableEq, Repr

def Finding.message (chapterId : String) (f : Finding) : String :=
  s!"chapter '{chapterId}': {f.place} {f.defect.describe}"

def successorFindings (known : List String) (place : String) : Option String → List Finding
  | some id => if known.contains id then [] else [⟨place, .unknownDocument id⟩]
  | none => []

def conditionFindings (place : String) (c : Condition) : List Finding :=
  c.problems.map (fun reason => ⟨place, .malformedCondition reason⟩)

def effectFindings (place : String) (effects : List Effect) : List Finding :=
  (Effect.problems effects).map (fun problem => ⟨place, .invalidEffect problem⟩)

def targetFindings (known : List String) (place : String) (choice : Choice) : List Finding :=
  match choice.next, choice.reveal with
  | some next, reveal =>
    if next = revealMark then
      match reveal with
      | some target => successorFindings known place (some target)
      | none => [⟨place, .revealWithoutTarget⟩]
    else
      successorFindings known place (some next)
  | none, reveal => successorFindings known place reveal

def choiceFindings (known : List String) (place : String) (choice : Choice) : List Finding :=
  (if choice.isWellFormed then [] else [⟨place, .incomplete⟩]) ++
    (if choice.next.isNone && choice.reveal.isNone then [⟨place, .noSuccessor⟩] else []) ++
    targetFindings known place choice ++
    conditionFindings s!"{place} requires" choice.requires ++
    effectFindings place choice.effects

/--
Check the choices of a list whose places begin with a label.
-/
def choicesFindings (known : List String) (label : String) (choices : List Choice) :
    List Finding :=
  choices.zipIdx.flatMap (fun (choice, index) => choiceFindings known s!"{label} #{index}" choice)

def variantFindings (known : List String) (variant : Variant) (index : Nat) : List Finding :=
  conditionFindings s!"variant #{index} trigger" variant.trigger.condition ++
    choicesFindings known s!"variant #{index} choice" (variant.choices.getD []) ++
    successorFindings known s!"variant #{index} default_next" variant.defaultNext

def spellEffectFindings (chapter : Chapter) (place : String) : SpellEffect → List Finding
  | .factionReaction faction _ =>
    if chapter.factions.contains faction then [] else [⟨place, .unknownFaction faction⟩]
  | .unknown => [⟨place, .unknownSpellEffect⟩]
  | .statChange _ _ => []

def spellFindings (chapter : Chapter) (config : Config) (name : String) (spell : Spell) :
    List Finding :=
  let place := s!"spell '{name}'"
  (if config.leyLines.contains spell.element then []
    else [⟨place, .unknownLeyLine spell.element⟩]) ++
    conditionFindings s!"{place} requires" spell.requires ++
    spell.effects.flatMap (spellEffectFindings chapter place)

def factionFindings (name : String) : Option Strategy → List Finding
  | none => []
  | some strategy =>
    let place := s!"faction '{name}'"
    conditionFindings s!"{place} strategy" strategy.condition ++
      strategy.responses.filterMap fun
        | .unrecognized token => some ⟨place, .unknownResponse token⟩
        | _ => none

def characterFindings (chapter : Chapter) : List Finding :=
  chapter.choices.zipIdx.flatMap fun (choice, index) =>
    (choice.characters.filter (fun id => !chapter.characters.any (·.id == id))).map fun id =>
      ⟨s!"choice #{index}", .unlistedCharacter id⟩

def interactionFindings (chapter : Chapter) : List Finding :=
  chapter.interactions.flatMap fun (character, interaction) =>
    match interaction with
    | some i => effectFindings s!"'{character}' interaction" i.effects
    | none => []

/--
Check a chapter, given the ids of the documents that exist.
-/
def chapterFindings (known : List String) (config : Config) (chapter : Chapter) : List Finding :=
  successorFindings known "default_next" chapter.defaultNext ++
    choicesFindings known "choice" chapter.choices ++
    chapter.variants.zipIdx.flatMap (fun (variant, index) => variantFindings known variant index) ++
    chapter.spells.entries.flatMap (fun (name, spell) => spellFindings chapter config name spell) ++
    chapter.factions.entries.flatMap (fun (name, strategy) => factionFindings name strategy) ++
    characterFindings chapter ++
    interactionFindings chapter

end Narrative.Lint

import Narrative.Proofs.Chapter.Edit

/-!
This module contains the rules of a chapter, which are the conditions and effects that its document gives. Rules are
decoded from any value, so another value in the place of a rule changes this rule alone, and it never decides whether
the document is a chapter.
-/

namespace Narrative

/--
A rule of a choice, by the name of its field. The requirement has two names.
-/
inductive ChoiceRule where
  | requires
  | requirements
  | effects

/--
A place of the document of a chapter that has a rule.
-/
inductive RulePlace where
  | choice (index : Nat) (rule : ChoiceRule)
  | variantTrigger (index : Nat)
  | variantChoice (variant index : Nat) (rule : ChoiceRule)
  | spellRequirement (spell : String)
  | strategyCondition (faction : String)
  | interactionEffects (character : String)

namespace ChoiceRule

def name : ChoiceRule → String
  | requires => "requires"
  | requirements => "requirements"
  | effects => "effects"

def put (v : Json) : ChoiceRule → Choice → Choice
  | requires, choice | requirements, choice => { choice with requires := Condition.ofJson v }
  | effects, choice => { choice with effects := Effect.ofJson v }

end ChoiceRule

namespace Decoder

def variantFields : List String :=
  ["trigger", "title", "text", "background", "choices", "default_next"]

def spellFields : List String :=
  ["name", "element", "skill", "threshold", "effects", "requires"]

def interactionFields : List String :=
  ["trigger_arc", "sprite_change", "dialogue", "mood", "effects"]

end Decoder

namespace RulePlace

open Json (editField editItem editRecord)
open Decoder (choiceFields variantFields spellFields interactionFields)

/--
Write a value in the place of a rule, if the document has the place.
-/
def replace (v : Json) : RulePlace → Json → Option Json
  | choice index rule =>
    editField "choices" (editItem index (editRecord choiceFields rule.name (fun _ => some v)))
  | variantTrigger index =>
    editField "variants" (editItem index (editRecord variantFields "trigger" (fun _ => some v)))
  | variantChoice variant index rule =>
    editField "variants" (editItem variant (editRecord variantFields "choices"
      (editItem index (editRecord choiceFields rule.name (fun _ => some v)))))
  | spellRequirement spell =>
    editField "spells" (editField spell (editRecord spellFields "requires" (fun _ => some v)))
  | strategyCondition faction =>
    editField "faction_ai" (editField faction (editRecord ["strategy"] "strategy"
      (editRecord ["if", "then"] "if" (fun _ => some v))))
  | interactionEffects character =>
    editField "dynamic_elements" (editRecord ["character_interactions"] "character_interactions"
      (editField character (editRecord ["on_select"] "on_select"
        (editRecord interactionFields "effects" (fun _ => some v)))))

/--
The chapter with the rule of a place decoded from the value, and all else as it is.
-/
def put (v : Json) : RulePlace → Chapter → Chapter
  | choice index rule, chapter => { chapter with choices := chapter.choices.modify index (rule.put v) }
  | variantTrigger index, chapter =>
    { chapter with
      variants := chapter.variants.modify index (fun variant => { variant with trigger := Decoder.trigger v }) }
  | variantChoice variant index rule, chapter =>
    { chapter with
      variants := chapter.variants.modify variant
        (fun variant => { variant with choices := variant.choices.map (·.modify index (rule.put v)) }) }
  | spellRequirement spell, chapter =>
    { chapter with
      spells := chapter.spells.modify spell (fun spell => { spell with requires := Condition.ofJson v }) }
  | strategyCondition faction, chapter =>
    { chapter with
      factions := chapter.factions.modify faction
        (Option.map (fun strategy => { strategy with condition := Condition.ofRequired v })) }
  | interactionEffects character, chapter =>
    { chapter with
      interactions := Table.modifyEntries character
        (Option.map (fun interaction => { interaction with effects := Effect.ofJson v })) chapter.interactions }

end RulePlace

namespace Decoder

open Json (editField editItem editRecord setField)

theorem withDefault?_some {α : Type} (default : α) (read : Json → Option α) (value : Json) :
    withDefault? default read (some value) = read value := rfl

section

variable {field : String → Option Json} {name : String} {value v : Json}

/--
Under either of its names, a requirement that is given is replaced. One given twice stays given twice.
-/
theorem requirement?_update (hname : name = "requires" ∨ name = "requirements") (h : field name = some value) :
    requirement? (Function.update field name (some v)) = (requirement? field).map (fun _ => some v) := by
  unfold requirement?
  rcases hname with rfl | rfl
  · rw [Function.update_self, Function.update_of_ne (by decide), h]
    cases field "requirements" <;> rfl
  · rw [Function.update_self, Function.update_of_ne (by decide), h]
    cases field "requires" <;> rfl

theorem requirement?_update_of_ne (hrequires : "requires" ≠ name) (hrequirements : "requirements" ≠ name) :
    requirement? (Function.update field name (some v)) = requirement? field := by
  unfold requirement?
  rw [Function.update_of_ne hrequires, Function.update_of_ne hrequirements]

end

theorem follows_choice? (v : Json) (rule : ChoiceRule) :
    Follows choice? (editRecord choiceFields rule.name (fun _ => some v)) (rule.put v) := by
  apply FollowsField.record
  rintro field value _ hfield - ⟨⟩
  -- Other fields are read as before. What the edited one is read as goes through the reads to the record at their end.
  cases rule with
  | requires | requirements =>
    dsimp only [ChoiceRule.name] at hfield ⊢
    simp only [requirement?_update (by simp) hfield, ChoiceRule.put, Function.update_apply, String.reduceEq, reduceIte,
      condition, Option.map_some, Option.getD_some, Option.pure_def, Option.bind_eq_bind, Option.map_bind,
      Option.bind_map, Function.comp_def]
  | effects =>
    dsimp only [ChoiceRule.name] at hfield ⊢
    have hrequirement : requirement? (Function.update field "effects" (some v)) = requirement? field :=
      requirement?_update_of_ne (by decide) (by decide)
    simp only [hrequirement, ChoiceRule.put, Function.update_apply, String.reduceEq, reduceIte, effects,
      Option.map_some, Option.getD_some, Option.pure_def, Option.bind_eq_bind, Option.map_bind, Function.comp_def]

theorem follows_variant?_trigger (v : Json) :
    Follows variant? (editRecord variantFields "trigger" (fun _ => some v))
      (fun variant => { variant with trigger := trigger v }) := by
  apply FollowsField.record
  rintro field value _ hfield - ⟨⟩
  simp only [Function.update_apply, String.reduceEq, reduceIte, Option.map_some, Option.getD_some, Option.pure_def,
    Option.bind_eq_bind, Option.map_bind, Function.comp_def]

theorem Follows.variant?_choices {edit : Json → Option Json} {put : Option (List Choice) → Option (List Choice)}
    (h : Follows (nullable? (list? choice?)) edit put) :
    Follows variant? (editRecord variantFields "choices" edit)
      (fun variant => { variant with choices := put variant.choices }) := by
  apply FollowsField.record
  intro field value value' hfield hkeys hedit
  simp only [Function.update_apply, String.reduceEq, reduceIte, withDefault?_some, hfield, h hkeys hedit,
    Option.pure_def, Option.bind_eq_bind, Option.map_bind, Option.bind_map, Option.map_some, Function.comp_def]

theorem follows_spell? (v : Json) :
    Follows spell? (editRecord spellFields "requires" (fun _ => some v))
      (fun spell => { spell with requires := Condition.ofJson v }) := by
  apply FollowsField.record
  rintro field value _ hfield - ⟨⟩
  simp only [Function.update_apply, String.reduceEq, reduceIte, condition, Option.map_some, Option.getD_some,
    Option.pure_def, Option.bind_eq_bind, Option.map_bind, Function.comp_def]

theorem follows_strategy? (v : Json) :
    Follows strategy? (editRecord ["if", "then"] "if" (fun _ => some v))
      (fun strategy => { strategy with condition := Condition.ofRequired v }) := by
  apply FollowsField.record
  rintro field value _ hfield - ⟨⟩
  simp only [Function.update_apply, String.reduceEq, reduceIte, Option.map_some, Option.getD_some, Option.pure_def,
    Option.bind_eq_bind, Option.map_bind, Function.comp_def]

theorem follows_interaction? (v : Json) :
    Follows interaction? (editRecord interactionFields "effects" (fun _ => some v))
      (fun interaction => { interaction with effects := Effect.ofJson v }) := by
  apply FollowsField.record
  rintro field value _ hfield - ⟨⟩
  simp only [Function.update_apply, String.reduceEq, reduceIte, effects, Option.map_some, Option.getD_some,
    Option.pure_def, Option.bind_eq_bind, Option.map_bind, Function.comp_def]

theorem follows_faction? (v : Json) :
    Follows faction? (editRecord ["strategy"] "strategy" (editRecord ["if", "then"] "if" (fun _ => some v)))
      (Option.map (fun strategy => { strategy with condition := Condition.ofRequired v })) :=
  ((follows_strategy? v).nullable fun _ _ => Json.ne_null_of_editRecord).record_withDefault _ _ none

theorem follows_onSelect? (v : Json) :
    Follows onSelect? (editRecord ["on_select"] "on_select" (editRecord interactionFields "effects" (fun _ => some v)))
      (Option.map (fun interaction => { interaction with effects := Effect.ofJson v })) :=
  ((follows_interaction? v).nullable fun _ _ => Json.ne_null_of_editRecord).record_withDefault _ _ none

theorem follows_interactions? (v : Json) (character : String) :
    Follows interactions?
      (editRecord ["character_interactions"] "character_interactions"
        (editField character (editRecord ["on_select"] "on_select"
          (editRecord interactionFields "effects" (fun _ => some v)))))
      (Table.modifyEntries character
        (Option.map (fun interaction => { interaction with effects := Effect.ofJson v }))) :=
  ((follows_onSelect? v).entries character).record_withDefault _ _ []

section

variable {edit : Json → Option Json}

theorem Follows.chapter?_choices {put : List Choice → List Choice} (h : Follows (list? choice?) edit put) :
    FollowsObject "choices" chapter? edit (fun chapter => { chapter with choices := put chapter.choices }) := by
  intro fields value value' hvalue hkeys hedit
  have hread := h hkeys hedit
  simp only [chapter?, Json.lookup_setField, String.reduceEq, reduceIte, hvalue, withDefault?_some, hread,
    Option.pure_def, Option.bind_eq_bind, Option.map_bind, Option.bind_map, Option.map_some, Function.comp_def]

theorem Follows.chapter?_variants {put : List Variant → List Variant} (h : Follows (list? variant?) edit put) :
    FollowsObject "variants" chapter? edit (fun chapter => { chapter with variants := put chapter.variants }) := by
  intro fields value value' hvalue hkeys hedit
  have hread := h hkeys hedit
  simp only [chapter?, Json.lookup_setField, String.reduceEq, reduceIte, hvalue, withDefault?_some, hread,
    Option.pure_def, Option.bind_eq_bind, Option.map_bind, Option.bind_map, Option.map_some, Function.comp_def]

theorem Follows.chapter?_spells {put : Table Spell → Table Spell}
    (h : Follows (fun j => (entries? spell? j).map Table.ofList) edit put) :
    FollowsObject "spells" chapter? edit (fun chapter => { chapter with spells := put chapter.spells }) := by
  intro fields value value' hvalue hkeys hedit
  have hread := h hkeys hedit
  dsimp only at hread
  simp only [chapter?, Json.lookup_setField, String.reduceEq, reduceIte, hvalue, withDefault?_some, hread,
    Option.pure_def, Option.bind_eq_bind, Option.map_bind, Option.bind_map, Option.map_some, Function.comp_def]

theorem Follows.chapter?_factions {put : Table (Option Strategy) → Table (Option Strategy)}
    (h : Follows (fun j => (entries? faction? j).map Table.ofList) edit put) :
    FollowsObject "faction_ai" chapter? edit (fun chapter => { chapter with factions := put chapter.factions }) := by
  intro fields value value' hvalue hkeys hedit
  have hread := h hkeys hedit
  dsimp only at hread
  simp only [chapter?, Json.lookup_setField, String.reduceEq, reduceIte, hvalue, withDefault?_some, hread,
    Option.pure_def, Option.bind_eq_bind, Option.map_bind, Option.bind_map, Option.map_some, Function.comp_def]

theorem Follows.chapter?_interactions {put : List (String × Option Interaction) → List (String × Option Interaction)}
    (h : Follows interactions? edit put) :
    FollowsObject "dynamic_elements" chapter? edit
      (fun chapter => { chapter with interactions := put chapter.interactions }) := by
  intro fields value value' hvalue hkeys hedit
  have hread := h hkeys hedit
  simp only [chapter?, Json.lookup_setField, String.reduceEq, reduceIte, hvalue, withDefault?_some, hread,
    Option.pure_def, Option.bind_eq_bind, Option.map_bind, Option.bind_map, Option.map_some, Function.comp_def]

end

end Decoder

namespace RulePlace

open Decoder

/--
Bad rules never block a chapter: with any other value in the place of a rule, the document makes up the same chapter as
before but for this rule, or fails to for the same reason as before.
-/
theorem document_replace {j edited : Json} (place : RulePlace) (v : Json) (hkeys : j.DistinctKeys)
    (h : place.replace v j = some edited) :
    document chapter? edited = (document chapter? j).map (place.put v) := by
  cases place with
  | choice index rule =>
    have hchoices := (follows_choice? v rule).list index
    exact hchoices.chapter?_choices.document hkeys h
  | variantTrigger index =>
    have hvariants := (follows_variant?_trigger v).list index
    exact hvariants.chapter?_variants.document hkeys h
  | variantChoice variant index rule =>
    have hchoices := ((follows_choice? v rule).list index).nullable (fun _ _ => Json.ne_null_of_editItem)
    have hvariants := hchoices.variant?_choices.list variant
    exact hvariants.chapter?_variants.document hkeys h
  | spellRequirement spell =>
    have hspells := (follows_spell? v).table spell
    exact hspells.chapter?_spells.document hkeys h
  | strategyCondition faction =>
    have hfactions := (follows_faction? v).table faction
    exact hfactions.chapter?_factions.document hkeys h
  | interactionEffects character =>
    have hinteractions := follows_interactions? v character
    exact hinteractions.chapter?_interactions.document hkeys h

/--
A document whose only rule is the requirement of a choice of a variant.
-/
def vigil (rule : Json) : Json :=
  .object [("id", .string "vigil"), ("text", .string "The bells toll."), ("background", .string "night.webp"),
    ("variants", .array [.object [("choices", .array [.object [("text", .string "Pray"), ("requirements", rule)]])]])]

theorem document_replace_vigil :
    let moral := Json.object [("moral", .number (.int 60))]
    let bad := Json.array [.null]
    let place := RulePlace.variantChoice 0 0 .requirements
    (vigil moral).DistinctKeys ∧ place.replace bad (vigil moral) = some (vigil bad) ∧
      (document chapter? (vigil moral)).isOk ∧
      document chapter? (vigil bad) = (document chapter? (vigil moral)).map (place.put bad) := by
  intro moral bad place
  have hkeys : (vigil moral).DistinctKeys := Json.distinctKeys_merge (vigil moral)
  exact ⟨hkeys, rfl, rfl, document_replace place bad hkeys rfl⟩

end RulePlace

end Narrative

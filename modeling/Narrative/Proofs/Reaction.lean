import Narrative.Reaction

/-!
This module contains which interactions a choice triggers: those of its arc, in the order in which they are authored.
-/

namespace Narrative

/--
Whether an interaction answers a choice: the choice has an arc, and it is the one that triggers the interaction.
-/
def Interaction.Answers (i : Interaction) (choice : Choice) : Prop :=
  ∃ arc, choice.arc = some arc ∧ i.triggerArc = some arc

theorem Interaction.answers_iff {i : Interaction} {choice : Choice} :
    i.Answers choice ↔ choice.arc.isSome ∧ i.triggerArc = choice.arc := by
  unfold Answers
  cases choice.arc with
  | none => simp
  | some arc => simp

instance (i : Interaction) (choice : Choice) : Decidable (i.Answers choice) :=
  decidable_of_iff _ Interaction.answers_iff.symm

namespace Chapter

/--
The interactions that a chapter has, with their characters, in authored order.
-/
def authored (chapter : Chapter) : List (String × Interaction) :=
  chapter.interactions.filterMap fun entry => entry.2.map (entry.1, ·)

/--
The effects of the interactions that answer a choice.
-/
def answers (chapter : Chapter) (choice : Choice) : List Effect :=
  (chapter.authored.filter (·.2.Answers choice)).flatMap (·.2.effects)

theorem triggered_eq_filter (chapter : Chapter) (choice : Choice) :
    chapter.triggered choice = chapter.authored.filter (·.2.Answers choice) := by
  unfold triggered authored
  rw [List.filter_filterMap]
  cases harc : choice.arc with
  | none =>
    have hnot : ∀ i : Interaction, ¬i.Answers choice := by
      intro i h
      rw [Interaction.answers_iff, harc] at h
      cases h.1
    symm
    rw [List.filterMap_eq_nil_iff]
    intro entry _
    cases entry.2 with
    | none => rfl
    | some i => simp [hnot]
  | some arc =>
    have hanswers : ∀ i : Interaction, i.Answers choice ↔ i.triggerArc = some arc := by
      intro i
      simp [Interaction.answers_iff, harc]
    dsimp only
    congr 1
    funext entry
    rw [Option.filter_map]
    congr 2
    funext i
    rw [Bool.eq_iff_iff]
    simp [hanswers]

theorem reactionEffects_eq_answers (chapter : Chapter) (choice : Choice) :
    chapter.reactionEffects choice = chapter.answers choice := by
  unfold reactionEffects answers
  rw [triggered_eq_filter]

end Chapter

end Narrative

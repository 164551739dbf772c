import Narrative.Magic
import Narrative.Proofs.Views

/-!
This module contains the repair of malformed conditions: any of the malformed parts may be replaced by whatever was
meant. A condition that holds still holds when it is repaired, so what is malformed opens nothing.
-/

namespace Narrative

namespace Condition

mutual

/--
One condition is another with some of its malformed parts replaced.
-/
inductive RepairedBy : Condition → Condition → Prop where
  | kept (c : Condition) : RepairedBy c c
  | replaced (reason : String) (c : Condition) : RepairedBy (.malformed reason) c
  | all {parts repaired : List Condition} (h : EachRepairedBy parts repaired) :
      RepairedBy (.all parts) (.all repaired)
  | any {parts repaired : List Condition} (h : EachRepairedBy parts repaired) :
      RepairedBy (.any parts) (.any repaired)

inductive EachRepairedBy : List Condition → List Condition → Prop where
  | nil : EachRepairedBy [] []
  | cons {part other : Condition} {rest others : List Condition} (h : RepairedBy part other)
      (hrest : EachRepairedBy rest others) : EachRepairedBy (part :: rest) (other :: others)

end

/--
The reason stands in a malformed part of the condition, at any depth.
-/
inductive Reports (reason : String) : Condition → Prop where
  | malformed : Reports reason (.malformed reason)
  | all {part : Condition} {parts : List Condition} (hmem : part ∈ parts) (h : Reports reason part) :
      Reports reason (.all parts)
  | any {part : Condition} {parts : List Condition} (hmem : part ∈ parts) (h : Reports reason part) :
      Reports reason (.any parts)

/--
The condition has a malformed part that is not below an alternative.
-/
inductive Blocked : Condition → Prop where
  | malformed (reason : String) : Blocked (.malformed reason)
  | all {part : Condition} {parts : List Condition} (hmem : part ∈ parts) (h : Blocked part) :
      Blocked (.all parts)

section

variable {b : Bindings} {p : Player}

mutual

theorem holds_of_repairedBy {c d : Condition} (h : c.RepairedBy d) (hc : c.holds b p) :
    d.holds b p := by
  cases h with
  | kept => exact hc
  | replaced reason d =>
    rw [holds] at hc
    cases hc
  | all h =>
    rw [holds] at hc ⊢
    exact allHold_of_repairedBy h hc
  | any h =>
    rw [holds] at hc ⊢
    exact anyHolds_of_repairedBy h hc

theorem allHold_of_repairedBy {parts repaired : List Condition} (h : EachRepairedBy parts repaired)
    (hparts : allHold b p parts) : allHold b p repaired := by
  cases h with
  | nil => exact hparts
  | cons h hrest =>
    rw [allHold, Bool.and_eq_true] at hparts ⊢
    exact ⟨holds_of_repairedBy h hparts.1, allHold_of_repairedBy hrest hparts.2⟩

theorem anyHolds_of_repairedBy {parts repaired : List Condition} (h : EachRepairedBy parts repaired)
    (hparts : anyHolds b p parts) : anyHolds b p repaired := by
  cases h with
  | nil => exact hparts
  | cons h hrest =>
    rw [anyHolds, Bool.or_eq_true] at hparts ⊢
    exact hparts.imp (holds_of_repairedBy h) (anyHolds_of_repairedBy hrest)

end

theorem holds_of_blocked {c : Condition} (h : c.Blocked) : c.holds b p = false := by
  induction h with
  | malformed reason => rw [holds]
  | all hmem _ ih =>
    rw [holds, allHold_eq_all, List.all_eq_false]
    exact ⟨_, hmem, by rw [ih]; exact Bool.false_ne_true⟩

end

theorem reports_of_mem_problems {reason : String} (c : Condition) :
    reason ∈ c.problems → c.Reports reason := by
  cases c with
  | malformed other =>
    rw [problems, List.mem_singleton]
    rintro rfl
    exact .malformed
  | all parts =>
    rw [problems, problemsOf_eq_flatMap, List.mem_flatMap]
    rintro ⟨part, hmem, hpart⟩
    exact .all hmem (reports_of_mem_problems part hpart)
  | any parts =>
    rw [problems, problemsOf_eq_flatMap, List.mem_flatMap]
    rintro ⟨part, hmem, hpart⟩
    exact .any hmem (reports_of_mem_problems part hpart)
  | always | expr | compare | status | hasItems | lacksItems | revealed | notRevealed =>
    simp [problems]
termination_by sizeOf c
decreasing_by
  all_goals
    have hlt := List.sizeOf_lt_of_mem hmem
    simp only [all.sizeOf_spec, any.sizeOf_spec]
    omega

theorem mem_problems {c : Condition} {reason : String} : reason ∈ c.problems ↔ c.Reports reason := by
  constructor
  · exact reports_of_mem_problems c
  · intro h
    induction h with
    | malformed => simp [problems]
    | all hmem _ ih =>
      rw [problems, problemsOf_eq_flatMap, List.mem_flatMap]
      exact ⟨_, hmem, ih⟩
    | any hmem _ ih =>
      rw [problems, problemsOf_eq_flatMap, List.mem_flatMap]
      exact ⟨_, hmem, ih⟩

theorem met_of_repairedBy {c d : Condition} (h : c.RepairedBy d) {p : Player} (hc : c.met p) : d.met p :=
  holds_of_repairedBy h hc

/--
What is malformed in a condition opens nothing. Where the condition holds, each of its repairs does; so a choice that
can be taken, a trigger that matches and a faction that reacts would be no different for the repaired condition.
-/
structure FailsClosed (c : Condition) : Prop where
  holds_repaired : ∀ d, c.RepairedBy d → ∀ b p, c.holds b p → d.holds b p
  never_holds : c.Blocked → ∀ b p, c.holds b p = false
  problems_iff : c.problems ≠ [] ↔ ∃ reason, c.Reports reason
  requirement : ∀ d, c.RepairedBy d → ∀ (choice : Choice) (p : Player) (index : Nat) (view : ChoiceView),
    { choice with requires := c }.view? p index = some view → view.enabled →
      { choice with requires := d }.view? p index = some view
  trigger : ∀ d, c.RepairedBy d → ∀ (default : Bool) (p : Player),
    Trigger.isMatch ⟨default, c⟩ p → Trigger.isMatch ⟨default, d⟩ p
  strategy : ∀ d, c.RepairedBy d → ∀ (responses : List FactionResponse) (p q : Player),
    Strategy.react? ⟨c, responses⟩ p = some q → Strategy.react? ⟨d, responses⟩ p = some q

theorem failsClosed (c : Condition) : c.FailsClosed where
  holds_repaired := fun _ h _ _ hc => holds_of_repairedBy h hc
  never_holds := fun h _ _ => holds_of_blocked h
  problems_iff := by
    rw [← List.isEmpty_eq_false_iff, List.isEmpty_eq_false_iff_exists_mem]
    exact exists_congr (fun _ => mem_problems)
  requirement := by
    intro d h choice p index view hview henabled
    obtain ⟨hwf, _, rfl⟩ := Choice.view?_eq_some.mp hview
    have hd := met_of_repairedBy h henabled
    refine Choice.view?_eq_some.mpr ⟨hwf, .inl hd, ?_⟩
    dsimp only at henabled hd ⊢
    rw [henabled, hd]
  trigger := by
    intro d h default p hc
    unfold Trigger.isMatch at hc ⊢
    rw [Bool.or_eq_true] at hc ⊢
    exact hc.imp_right (met_of_repairedBy h)
  strategy := by
    intro d h responses p q hc
    unfold Strategy.react? at hc ⊢
    split at hc
    · next hholds =>
      rw [if_pos (holds_of_repairedBy h hholds)]
      exact hc
    · cases hc

end Condition

end Narrative

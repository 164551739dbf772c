import Narrative.Proofs.Condition.Clause

/-!
This module contains how the two ways to read a value as a condition differ. Where a condition may be left out, `null`,
an empty object and a blank text are read as no requirement. Where one has to be stated, `null` and a blank text are
refused, while an empty object still is no requirement. All other values are read alike.
-/

namespace Narrative.Condition

open Text

theorem isAlways_iff {c : Condition} : c.isAlways ↔ c = .always := by
  cases c <;> simp [isAlways]

theorem conjunction_ne_always {clauses : List Condition} (hne : clauses ≠ [])
    (h : ∀ clause ∈ clauses, clause ≠ .always) : conjunction clauses ≠ .always := by
  unfold conjunction
  split
  · exact absurd rfl hne
  · exact h _ (List.mem_singleton.mpr rfl)
  · simp

theorem ofExpr_ne_always (s : String) : ofExpr s ≠ .always := by
  unfold ofExpr
  split <;> simp

theorem ofField_ne_always (key : String) (v : Json) : ofField key v ≠ .always := by
  unfold ofField
  split
  · split <;> simp
  · exact (isClause_ofClause key v).ne_always

theorem ofAlternatives_ne_always (v : Json) : ofAlternatives v ≠ .always := by
  unfold ofAlternatives
  split <;> simp

theorem ofEntry_cons_ne_always (field : String × Json) (rest : List (String × Json)) :
    ofEntry (.object (field :: rest)) ≠ .always := by
  rw [ofEntry_object]
  cases (field :: rest).lookup "any" with
  | some alternatives => exact ofAlternatives_ne_always alternatives
  | none =>
    apply conjunction_ne_always
    · exact List.cons_ne_nil _ _
    · intro clause hclause
      obtain ⟨⟨key, v⟩, -, rfl⟩ := List.mem_map.mp hclause
      exact ofField_ne_always key v

theorem ofEntry_eq_always_iff {v : Json} : ofEntry v = .always ↔ v = .object [] := by
  cases v with
  | string s => simp [ofEntry, ofExpr_ne_always]
  | object fields =>
    cases fields with
    | nil => exact iff_of_true rfl rfl
    | cons field rest => simp [ofEntry_cons_ne_always]
  | null | bool | number | array => simp [ofEntry]

/--
The values that are read as no requirement where a condition may be left out.
-/
theorem ofJson_eq_always_iff {v : Json} :
    ofJson v = .always ↔ v = .null ∨ v = .object [] ∨ ∃ s, v = .string s ∧ Blank s.toList := by
  cases v with
  | string s =>
    have hempty : (trim s.toList).isEmpty ↔ Blank s.toList := by
      rw [List.isEmpty_iff, trim_eq_nil_iff]
    by_cases hblank : Blank s.toList
    · simp [ofJson, hempty.mpr hblank, hblank]
    · simp [ofJson, mt hempty.mp hblank, hblank, ofEntry_eq_always_iff]
  | object fields => cases fields <;> simp [ofJson, ofEntry_eq_always_iff]
  | null => simp [ofJson]
  | bool | number | array => simp [ofJson, ofEntry_eq_always_iff]

/--
The condition is one that could not be understood. It is reported once and never holds.
-/
structure Refused (c : Condition) : Prop where
  malformed : ∃ reason, c = .malformed reason ∧ c.problems = [reason]
  not_holds : ∀ b p, c.holds b p = false

theorem refused_malformed (reason : String) : Refused (.malformed reason) where
  malformed := ⟨reason, rfl, rfl⟩
  not_holds _ _ := holds_malformed

theorem refused_ofExpr {s : String} (h : Blank s.toList) : Refused (ofExpr s) := by
  unfold ofExpr
  split
  · next e hparse => exact absurd h (Expr.not_blank_of_reads (Expr.parse_eq_ok.mp hparse))
  · exact refused_malformed _

theorem refused_ofRequired {v : Json} (h : ofJson v = .always) (hv : v ≠ .object []) : Refused (ofRequired v) := by
  obtain rfl | rfl | ⟨s, rfl, hblank⟩ := ofJson_eq_always_iff.mp h
  · exact refused_malformed _
  · exact absurd rfl hv
  · have hread : ofRequired (.string s) = ofExpr s := by
      simp only [ofRequired, ofEntry]
    rw [hread]
    exact refused_ofExpr hblank

theorem ofRequired_eq_ofJson {v : Json} (h : ofJson v ≠ .always) : ofRequired v = ofJson v := by
  cases v with
  | string s =>
    simp only [ofJson] at h ⊢
    split
    · next hblank => exact absurd (if_pos hblank) h
    · simp only [ofRequired]
  | object fields =>
    cases fields with
    | nil => exact absurd rfl h
    | cons => rfl
  | null => exact absurd rfl h
  | bool | number | array => rfl

/--
The two readings of a value. What is no requirement where a condition may be left out is refused where one has to be
stated, an empty object apart.
-/
structure ReadBothWays (v : Json) : Prop where
  ofJson_iff : ofJson v = .always ↔ v = .null ∨ v = .object [] ∨ ∃ s, v = .string s ∧ Blank s.toList
  refused : ofJson v = .always → v ≠ .object [] → Refused (ofRequired v)
  kept : ofJson v ≠ .always → ofRequired v = ofJson v
  emptyObject : v = .object [] → ofRequired v = .always

theorem readBothWays (v : Json) : ReadBothWays v where
  ofJson_iff := ofJson_eq_always_iff
  refused := refused_ofRequired
  kept := ofRequired_eq_ofJson
  emptyObject := by
    rintro rfl
    rfl

end Narrative.Condition

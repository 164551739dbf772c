import Narrative.Proofs.Condition.Meaning
import Narrative.Proofs.Json.Reordering

/-!
This module contains that the order of fields has no part in what a condition means: reordered values are satisfied by
the same players.
-/

namespace Narrative.Condition

open Json (Reordered ReorderedItems ReorderedFields ReorderedField DistinctKeys)

variable {b : Bindings} {p : Player} {v w : Json} {key : String}

theorem isWord_of_reordered {n : Int64} (h : v.Reordered w) : IsWord v n ↔ IsWord w n := by
  unfold IsWord
  cases h with
  | null | bool | number | string => rfl
  | array | object => simp

theorem eq_string_of_reordered {s : String} (h : v.Reordered w) : v = .string s ↔ w = .string s := by
  cases h with
  | null | bool | number | string => rfl
  | array | object => simp

theorem eq_strings_of_reordered {ids : List String} {items others : List Json}
    (h : ReorderedItems items others) : items = ids.map .string ↔ others = ids.map .string := by
  induction items generalizing ids others with
  | nil =>
    cases h
    rfl
  | cons item rest ih =>
    cases h with
    | cons hitem hrest =>
      cases ids with
      | nil => simp
      | cons id ids =>
        rw [List.map_cons, List.cons.injEq, List.cons.injEq]
        exact and_congr (eq_string_of_reordered hitem) (ih hrest)

theorem lists_array_iff {ids : List String} {items : List Json} :
    Lists (.array items) ids ↔ items = ids.map .string := by
  constructor
  · rintro ⟨⟩
    rfl
  · rintro rfl
    exact .many ids

theorem lists_of_reordered {ids : List String} (h : v.Reordered w) : Lists v ids ↔ Lists w ids := by
  cases h with
  | null | bool | number | string => rfl
  | object => exact ⟨nofun, nofun⟩
  | array hitems => rw [lists_array_iff, lists_array_iff, eq_strings_of_reordered hitems]

theorem statusSatisfied_of_reordered (h : v.Reordered w) :
    StatusSatisfied p key v ↔ StatusSatisfied p key w := by
  cases h with
  | null | bool | number | string => rfl
  | array | object => simp [StatusSatisfied, IsWord]

theorem hasPlus_of_reordered (h : v.Reordered w) : HasPlus v ↔ HasPlus w := by
  cases h <;> rfl

theorem shorthandSatisfied_of_reordered (h : v.Reordered w) :
    ShorthandSatisfied p key v ↔ ShorthandSatisfied p key w := by
  cases h <;> rfl

theorem statSatisfied_of_reordered (h : v.Reordered w) :
    StatSatisfied p key v ↔ StatSatisfied p key w := by
  cases h with
  | null | bool | number | string => rfl
  | array => simp [StatSatisfied, IsWord]
  | object hfields hperm =>
    apply and_congr
    · exact (hfields.corresponds.perm hperm).ne_nil_iff
    · apply hfields.forall_iff hperm
      intro symbol operand _ other hoperand
      simp only [isWord_of_reordered hoperand]

theorem clauseSatisfied_of_reordered (h : v.Reordered w) :
    ClauseSatisfied p key v ↔ ClauseSatisfied p key w := by
  unfold ClauseSatisfied
  simp only [hasPlus_of_reordered h, statusSatisfied_of_reordered h, shorthandSatisfied_of_reordered h,
    lists_of_reordered h, statSatisfied_of_reordered h]

theorem entrySatisfied_of_reordered (v : Json) :
    ∀ {w : Json}, v.Reordered w → v.DistinctKeys → (EntrySatisfied b p v ↔ EntrySatisfied b p w) := by
  cases v with
  | object fields =>
    intro w h hkeys
    cases h with
    | @object _ inner others hfields hperm =>
    cases hkeys with
    | object hnames hvalues =>
    -- Further conditions stand in a list under a key of the object.
    have hitems : ∀ key items, (key, .array items) ∈ fields → ∀ item ∈ items, ∀ other,
        item.Reordered other → (EntrySatisfied b p item ↔ EntrySatisfied b p other) := by
      intro key items hfield item hitem other hreordered
      cases hvalues _ hfield with
      | array hdistinct => exact entrySatisfied_of_reordered item hreordered (hdistinct item hitem)
    have hany := Json.lookup_of_reordered hfields hperm hnames "any"
    rw [entrySatisfied_object, entrySatisfied_object]
    cases hlookup : fields.lookup "any" with
    | some alternatives =>
      rw [hlookup] at hany
      generalize others.lookup "any" = found at hany
      cases hany with
      | some halternatives =>
        cases halternatives with
        | array h => exact h.corresponds.exists_iff (hitems "any" _ (mem_of_lookup hlookup))
        | null | bool | number | string | object => rfl
    | none =>
      rw [hlookup] at hany
      generalize others.lookup "any" = found at hany
      cases hany
      apply hfields.forall_iff hperm
      intro key value hfield other hvalue
      split
      · cases hvalue with
        | array h =>
          simp only [Json.array.injEq, exists_eq_left']
          exact h.corresponds.forall_iff (hitems key _ hfield)
        | null | bool | number | string | object => simp
      · exact clauseSatisfied_of_reordered hvalue
  | array items =>
    intro w h _
    cases h
    simp [EntrySatisfied]
  | null | bool | number | string =>
    intro w h _
    cases h
    rfl
termination_by sizeOf v
decreasing_by
  exact Nat.lt_trans (sizeOf_item_lt hitem) (sizeOf_field_lt hfield)

theorem satisfied_object {fields : List (String × Json)} :
    Satisfied b p (.object fields) ↔ EntrySatisfied b p (.object fields) := by
  cases fields with
  | nil => simp [Satisfied, entrySatisfied_object]
  | cons => rfl

theorem satisfied_of_reordered (h : v.Reordered w) (hkeys : v.DistinctKeys) :
    Satisfied b p v ↔ Satisfied b p w := by
  cases h with
  | null | bool | number | string => rfl
  | array hitems => exact entrySatisfied_of_reordered _ (.array hitems) hkeys
  | object hfields hperm =>
    rw [satisfied_object, satisfied_object]
    exact entrySatisfied_of_reordered _ (.object hfields hperm) hkeys

theorem holds_ofRequired (v : Json) : (ofRequired v).holds b p ↔ EntrySatisfied b p v := by
  cases v with
  | null => simp [ofRequired, EntrySatisfied]
  | bool | number | string | array | object => exact holds_ofEntry _

end Narrative.Condition

import Narrative.Chapter.Decoder
import Narrative.Proofs.Condition.Order

/-!
This module contains the meaning of a trigger, told from its JSON value alone. The order of the fields has no part in
it, though the reader moves the last of them when it takes out `default`.
-/

namespace Narrative

open Json (Reordered DistinctKeys)

/--
The players that match a trigger as it is written: its `default` is true, or they satisfy what its other fields make
up. Everyone matches where no trigger is written.
-/
def Trigger.Matches (p : Player) : Option Json → Prop
  | none => True
  | some (.object fields) =>
    ("default", .bool true) ∈ fields ∨
      Condition.Satisfied .empty p (.object (fields.filter (·.1 != "default")))
  | some v => Condition.Satisfied .empty p v

namespace Decoder

variable {p : Player} {fields : List (String × Json)}

def triggerOf (written : Option Json) : Trigger :=
  (written.map trigger).getD {}

/--
A trigger that is read without moving any field.
-/
def triggerInPlace : Json → Trigger
  | .object fields =>
    ⟨((fields.lookup "default").bind bool?).getD false, Condition.ofJson (.object (fields.filter (·.1 != "default")))⟩
  | value => ⟨false, Condition.ofJson value⟩

theorem filter_of_notMem {name : String} (h : name ∉ fields.map (·.1)) :
    fields.filter (·.1 != name) = fields := by
  rw [List.filter_eq_self]
  intro field hmem
  rw [bne_iff_ne]
  rintro rfl
  exact h (List.mem_map.mpr ⟨field, hmem, rfl⟩)

/--
Taking out a field leaves the others, if only in another order.
-/
theorem swapRemove_perm {name : String} (h : (fields.map (·.1)).Nodup) :
    (swapRemove name fields).Perm (fields.filter (·.1 != name)) := by
  induction fields with
  | nil => exact .nil
  | cons field rest ih =>
    obtain ⟨other, value⟩ := field
    rw [List.map_cons, List.nodup_cons] at h
    unfold swapRemove
    by_cases hname : other = name
    · subst hname
      rw [if_pos rfl, List.filter_cons, if_neg (by simp), filter_of_notMem h.1]
      rcases rest.eq_nil_or_concat with rfl | ⟨front, last, rfl⟩
      · exact .nil
      · rw [List.concat_eq_append, List.getLast?_concat, List.dropLast_concat]
        exact (List.perm_append_singleton last front).symm
    · rw [if_neg hname, List.filter_cons, if_pos (bne_iff_ne.mpr hname)]
      exact (ih h.2).cons _

theorem matches_object : Trigger.Matches p (some (.object fields)) ↔
    ("default", .bool true) ∈ fields ∨
      Condition.Satisfied .empty p (.object (fields.filter (·.1 != "default"))) :=
  Iff.rfl

theorem isMatch_iff {t : Trigger} : t.isMatch p ↔ t.default ∨ t.condition.met p := by
  unfold Trigger.isMatch
  rw [Bool.or_eq_true]

theorem met_ofJson {v : Json} : (Condition.ofJson v).met p ↔ Condition.Satisfied .empty p v :=
  Condition.holds_iff_satisfied v

theorem trigger_of_none (h : fields.lookup "default" = none) :
    trigger (.object fields) = ⟨false, Condition.ofJson (.object fields)⟩ := by
  unfold trigger
  dsimp only
  rw [h]

theorem trigger_of_some {flag : Json} (h : fields.lookup "default" = some flag) :
    trigger (.object fields) =
      ⟨(bool? flag).getD false, Condition.ofJson (.object (swapRemove "default" fields))⟩ := by
  unfold trigger
  dsimp only
  rw [h]

theorem isMatch_trigger {v : Json} (h : v.DistinctKeys) :
    (trigger v).isMatch p ↔ Trigger.Matches p (some v) := by
  rw [isMatch_iff]
  cases v with
  | object fields =>
    have hrest := h.filter (·.1 != "default")
    cases h with
    | object hnames _ =>
    rw [matches_object]
    cases hflag : fields.lookup "default" with
    | none =>
      rw [trigger_of_none hflag]
      rw [Table.lookup_eq_none_iff] at hflag
      have habsent : ("default", .bool true) ∉ fields := fun hmem => hflag (List.mem_map_of_mem hmem)
      simp [met_ofJson, filter_of_notMem hflag, habsent]
    | some flag =>
      have hmem : ("default", .bool true) ∈ fields ↔ (bool? flag).getD false := by
        rw [← Table.lookup_eq_some_iff hnames, hflag]
        cases flag <;> simp [bool?]
      have hperm : (swapRemove "default" fields).Perm (fields.filter (·.1 != "default")) := swapRemove_perm hnames
      have hmoved := Json.reordered_of_perm hperm.symm
      rw [trigger_of_some hflag, met_ofJson, hmem, Condition.satisfied_of_reordered hmoved hrest]
  | null | bool | number | string | array => simp [trigger, Trigger.Matches, met_ofJson]

theorem matches_of_reordered {v w : Json} (h : v.Reordered w) (hkeys : v.DistinctKeys) :
    Trigger.Matches p (some v) ↔ Trigger.Matches p (some w) := by
  cases h with
  | null | bool | number | string => rfl
  | array hitems => exact Condition.satisfied_of_reordered (.array hitems) hkeys
  | @object fields inner others hfields hperm =>
    rw [matches_object, matches_object]
    apply or_congr
    · have hflag := (hfields.corresponds.perm hperm).exists_iff
        (P := (· = ("default", .bool true))) (Q := (· = ("default", .bool true)))
      simp only [exists_eq_right] at hflag
      apply hflag
      rintro ⟨name, value⟩ _ ⟨_, other⟩ ⟨rfl, hvalue⟩
      cases hvalue <;> simp
    · apply Condition.satisfied_of_reordered
      · exact .object (hfields.filter (· != "default")) (hperm.filter _)
      · exact hkeys.filter _

theorem isMatch_triggerInPlace {v : Json} (h : v.DistinctKeys) :
    (triggerInPlace v).isMatch p ↔ Trigger.Matches p (some v) := by
  rw [isMatch_iff]
  cases v with
  | object fields =>
    cases h with
    | object hnames _ =>
    rw [matches_object, ← Table.lookup_eq_some_iff hnames]
    unfold triggerInPlace
    dsimp only
    rw [met_ofJson]
    apply or_congr_left
    cases fields.lookup "default" with
    | none => simp
    | some flag => cases flag <;> simp [bool?]
  | null | bool | number | string | array => simp [triggerInPlace, Trigger.Matches, met_ofJson]

end Decoder

end Narrative

import Narrative.Json.Parser
import Narrative.Proofs.Table

/-!
This module contains JSON values up to the order of their fields. Reordered values have the same items, and under the
same names the same fields, again up to order. A text that is read gives no name twice.
-/

namespace Narrative

/--
Every member of either list has a counterpart in the other.
-/
structure Corresponds {α β : Type} (R : α → β → Prop) (xs : List α) (ys : List β) : Prop where
  right : ∀ x ∈ xs, ∃ y ∈ ys, R x y
  left : ∀ y ∈ ys, ∃ x ∈ xs, R x y

namespace Corresponds

variable {α β : Type} {R : α → β → Prop} {xs : List α} {ys zs : List β} {P : α → Prop} {Q : β → Prop}

theorem cons {x : α} {y : β} (hr : R x y) (h : Corresponds R xs ys) :
    Corresponds R (x :: xs) (y :: ys) where
  right := by
    intro a ha
    rcases List.mem_cons.mp ha with rfl | ha
    · exact ⟨y, by simp, hr⟩
    · obtain ⟨b, hb, hab⟩ := h.right a ha
      exact ⟨b, by simp [hb], hab⟩
  left := by
    intro b hb
    rcases List.mem_cons.mp hb with rfl | hb
    · exact ⟨x, by simp, hr⟩
    · obtain ⟨a, ha, hab⟩ := h.left b hb
      exact ⟨a, by simp [ha], hab⟩

theorem perm (h : Corresponds R xs ys) (hperm : ys.Perm zs) : Corresponds R xs zs where
  right := by
    intro x hx
    obtain ⟨y, hy, hr⟩ := h.right x hx
    exact ⟨y, hperm.mem_iff.mp hy, hr⟩
  left := fun z hz => h.left z (hperm.mem_iff.mpr hz)

theorem ne_nil_iff (h : Corresponds R xs ys) : xs ≠ [] ↔ ys ≠ [] := by
  constructor
  · rintro hxs rfl
    obtain ⟨x, hx⟩ := List.exists_mem_of_ne_nil xs hxs
    obtain ⟨_, hnil, _⟩ := h.right x hx
    cases hnil
  · rintro hys rfl
    obtain ⟨y, hy⟩ := List.exists_mem_of_ne_nil ys hys
    obtain ⟨_, hnil, _⟩ := h.left y hy
    cases hnil

theorem exists_iff (h : Corresponds R xs ys) (hiff : ∀ x ∈ xs, ∀ y, R x y → (P x ↔ Q y)) :
    (∃ x ∈ xs, P x) ↔ ∃ y ∈ ys, Q y := by
  constructor
  · rintro ⟨x, hx, hp⟩
    obtain ⟨y, hy, hr⟩ := h.right x hx
    exact ⟨y, hy, (hiff x hx y hr).mp hp⟩
  · rintro ⟨y, hy, hq⟩
    obtain ⟨x, hx, hr⟩ := h.left y hy
    exact ⟨x, hx, (hiff x hx y hr).mpr hq⟩

theorem forall_iff (h : Corresponds R xs ys) (hiff : ∀ x ∈ xs, ∀ y, R x y → (P x ↔ Q y)) :
    (∀ x ∈ xs, P x) ↔ ∀ y ∈ ys, Q y := by
  constructor
  · intro hp y hy
    obtain ⟨x, hx, hr⟩ := h.left y hy
    exact (hiff x hx y hr).mp (hp x hx)
  · intro hq x hx
    obtain ⟨y, hy, hr⟩ := h.right x hx
    exact (hiff x hx y hr).mpr (hq y hy)

end Corresponds

namespace Json

/--
No object in the value has two fields of one name.
-/
inductive DistinctKeys : Json → Prop where
  | null : DistinctKeys .null
  | bool (b : Bool) : DistinctKeys (.bool b)
  | number (n : Number) : DistinctKeys (.number n)
  | string (s : String) : DistinctKeys (.string s)
  | array {items : List Json} (h : ∀ item ∈ items, DistinctKeys item) : DistinctKeys (.array items)
  | object {fields : List (String × Json)} (hnames : (fields.map (·.1)).Nodup)
      (h : ∀ field ∈ fields, DistinctKeys field.2) : DistinctKeys (.object fields)

mutual

/--
Two values differ at most in the order of the fields of objects, at any depth.
-/
inductive Reordered : Json → Json → Prop where
  | null : Reordered .null .null
  | bool (b : Bool) : Reordered (.bool b) (.bool b)
  | number (n : Number) : Reordered (.number n) (.number n)
  | string (s : String) : Reordered (.string s) (.string s)
  | array {items others : List Json} (h : ReorderedItems items others) :
      Reordered (.array items) (.array others)
  | object {fields inner others : List (String × Json)} (h : ReorderedFields fields inner)
      (hperm : inner.Perm others) : Reordered (.object fields) (.object others)

inductive ReorderedItems : List Json → List Json → Prop where
  | nil : ReorderedItems [] []
  | cons {item other : Json} {rest others : List Json} (h : Reordered item other)
      (hrest : ReorderedItems rest others) : ReorderedItems (item :: rest) (other :: others)

inductive ReorderedFields : List (String × Json) → List (String × Json) → Prop where
  | nil : ReorderedFields [] []
  | cons (name : String) {value other : Json} {rest others : List (String × Json)}
      (h : Reordered value other) (hrest : ReorderedFields rest others) :
      ReorderedFields ((name, value) :: rest) ((name, other) :: others)

end

/--
Fields under one name with reordered values.
-/
def ReorderedField (field other : String × Json) : Prop :=
  field.1 = other.1 ∧ field.2.Reordered other.2

mutual

theorem Reordered.refl (j : Json) : j.Reordered j := by
  cases j with
  | null => exact .null
  | bool b => exact .bool b
  | number n => exact .number n
  | string s => exact .string s
  | array items => exact .array (ReorderedItems.refl items)
  | object fields => exact .object (ReorderedFields.refl fields) (.refl fields)

theorem ReorderedItems.refl (items : List Json) : ReorderedItems items items := by
  cases items with
  | nil => exact .nil
  | cons item rest => exact .cons (Reordered.refl item) (ReorderedItems.refl rest)

theorem ReorderedFields.refl (fields : List (String × Json)) : ReorderedFields fields fields := by
  cases fields with
  | nil => exact .nil
  | cons field rest => exact .cons field.1 (Reordered.refl field.2) (ReorderedFields.refl rest)

end

section

variable {items items' : List Json} {fields inner others : List (String × Json)}

theorem reordered_of_perm (h : fields.Perm others) : Reordered (.object fields) (.object others) :=
  .object (.refl fields) h

theorem ReorderedItems.corresponds (h : ReorderedItems items items') :
    Corresponds Reordered items items' := by
  induction items generalizing items' with
  | nil =>
    cases h
    exact ⟨nofun, nofun⟩
  | cons item rest ih =>
    cases h with
    | cons hitem hrest => exact (ih hrest).cons hitem

theorem ReorderedFields.corresponds (h : ReorderedFields fields inner) :
    Corresponds ReorderedField fields inner := by
  induction fields generalizing inner with
  | nil =>
    cases h
    exact ⟨nofun, nofun⟩
  | cons field rest ih =>
    cases h with
    | cons name hvalue hrest => exact (ih hrest).cons ⟨rfl, hvalue⟩

theorem ReorderedFields.forall_iff (h : ReorderedFields fields inner) (hperm : inner.Perm others)
    {P : String → Json → Prop}
    (hiff : ∀ name value, (name, value) ∈ fields → ∀ other, value.Reordered other → (P name value ↔ P name other)) :
    (∀ name value, (name, value) ∈ fields → P name value) ↔
      ∀ name value, (name, value) ∈ others → P name value := by
  rw [← Prod.forall (p := fun field => field ∈ fields → P field.1 field.2),
    ← Prod.forall (p := fun field => field ∈ others → P field.1 field.2)]
  apply (h.corresponds.perm hperm).forall_iff
  rintro ⟨name, value⟩ hmem ⟨_, other⟩ ⟨rfl, hvalue⟩
  exact hiff name value hmem other hvalue

theorem ReorderedFields.names_eq (h : ReorderedFields fields inner) :
    fields.map (·.1) = inner.map (·.1) := by
  induction fields generalizing inner with
  | nil =>
    cases h
    rfl
  | cons field rest ih =>
    cases h with
    | cons name hvalue hrest => rw [List.map_cons, List.map_cons, ih hrest]

theorem ReorderedFields.lookup (h : ReorderedFields fields inner) (name : String) :
    Option.Rel Reordered (fields.lookup name) (inner.lookup name) := by
  induction fields generalizing inner with
  | nil =>
    cases h
    exact .none
  | cons field rest ih =>
    cases h with
    | cons other hvalue hrest =>
      rw [Table.lookup_entry, Table.lookup_entry]
      split
      · exact .some hvalue
      · exact ih hrest

theorem ReorderedFields.filter (h : ReorderedFields fields inner) (keep : String → Bool) :
    ReorderedFields (fields.filter (fun field => keep field.1)) (inner.filter (fun field => keep field.1)) := by
  induction fields generalizing inner with
  | nil =>
    cases h
    exact .nil
  | cons field rest ih =>
    cases h with
    | cons name hvalue hrest =>
      rw [List.filter_cons, List.filter_cons]
      dsimp only
      split
      · exact .cons name hvalue (ih hrest)
      · exact ih hrest

theorem DistinctKeys.filter (h : DistinctKeys (.object fields)) (keep : String × Json → Bool) :
    DistinctKeys (.object (fields.filter keep)) := by
  cases h with
  | object hnames hvalues =>
    have hsublist := List.filter_sublist (p := keep) (l := fields)
    exact .object ((hsublist.map (·.1)).nodup hnames) (fun field hmem => hvalues field (hsublist.subset hmem))

/--
Under distinct names, a name has reordered values in reordered objects.
-/
theorem lookup_of_reordered (h : ReorderedFields fields inner) (hperm : inner.Perm others)
    (hnames : (fields.map (·.1)).Nodup) (name : String) :
    Option.Rel Reordered (fields.lookup name) (others.lookup name) := by
  rw [h.names_eq] at hnames
  rw [← Table.lookup_of_perm hperm hnames]
  exact h.lookup name

mutual

theorem DistinctKeys.of_reordered {v w : Json} (h : v.Reordered w) (hkeys : v.DistinctKeys) :
    w.DistinctKeys := by
  cases h with
  | null | bool | number | string => exact hkeys
  | array hitems =>
    cases hkeys with
    | array hkeys => exact .array (distinctKeys_of_reorderedItems hitems hkeys)
  | object hfields hperm =>
    cases hkeys with
    | object hnames hkeys =>
      rw [hfields.names_eq] at hnames
      refine .object ((hperm.map (·.1)).nodup_iff.mp hnames) ?_
      intro field hmem
      exact distinctKeys_of_reorderedFields hfields hkeys field (hperm.mem_iff.mpr hmem)

theorem distinctKeys_of_reorderedItems {items items' : List Json} (h : ReorderedItems items items')
    (hkeys : ∀ item ∈ items, item.DistinctKeys) : ∀ item ∈ items', item.DistinctKeys := by
  cases h with
  | nil => exact nofun
  | cons hitem hrest =>
    rw [List.forall_mem_cons] at hkeys ⊢
    exact ⟨.of_reordered hitem hkeys.1, distinctKeys_of_reorderedItems hrest hkeys.2⟩

theorem distinctKeys_of_reorderedFields {fields inner : List (String × Json)} (h : ReorderedFields fields inner)
    (hkeys : ∀ field ∈ fields, field.2.DistinctKeys) : ∀ field ∈ inner, field.2.DistinctKeys := by
  cases h with
  | nil => exact nofun
  | cons name hvalue hrest =>
    rw [List.forall_mem_cons] at hkeys ⊢
    exact ⟨.of_reordered hvalue hkeys.1, distinctKeys_of_reorderedFields hrest hkeys.2⟩

end

theorem mem_names_setField {name other : String} {value : Json} :
    other ∈ (setField name value fields).map (·.1) ↔ other = name ∨ other ∈ fields.map (·.1) := by
  induction fields with
  | nil => simp [setField]
  | cons field rest ih =>
    unfold setField
    split
    · next heq =>
      simp only [List.map_cons, List.mem_cons]
      rw [heq]
      exact or_self_left.symm
    · simp only [List.map_cons, List.mem_cons, ih]
      exact or_left_comm

theorem mem_setField {name : String} {value : Json} {field : String × Json}
    (h : field ∈ setField name value fields) : field.2 = value ∨ field ∈ fields := by
  induction fields with
  | nil =>
    obtain rfl := List.mem_singleton.mp h
    exact .inl rfl
  | cons head rest ih =>
    unfold setField at h
    split at h
    · rcases List.mem_cons.mp h with rfl | h
      · exact .inl rfl
      · exact .inr (by simp [h])
    · rcases List.mem_cons.mp h with rfl | h
      · exact .inr (by simp)
      · exact (ih h).imp_right (by simp +contextual)

theorem nodup_setField {name : String} {value : Json} (h : (fields.map (·.1)).Nodup) :
    ((setField name value fields).map (·.1)).Nodup := by
  induction fields with
  | nil => simp [setField]
  | cons field rest ih =>
    have hcons := List.nodup_cons.mp h
    unfold setField
    split
    · exact h
    · next hne =>
      rw [List.map_cons, List.nodup_cons, mem_names_setField, not_or]
      exact ⟨⟨hne, hcons.1⟩, ih hcons.2⟩

theorem DistinctKeys.setField {name : String} {value : Json} (h : DistinctKeys (.object fields))
    (hvalue : DistinctKeys value) : DistinctKeys (.object (setField name value fields)) := by
  cases h with
  | object hnames hfields =>
    refine .object (nodup_setField hnames) ?_
    intro field hmem
    rcases mem_setField hmem with heq | hmem
    · rw [heq]
      exact hvalue
    · exact hfields field hmem

theorem distinctKeys_mergeFields (h : ∀ field ∈ fields, DistinctKeys field.2) :
    DistinctKeys (.object (mergeFields fields)) := by
  have hfold : ∀ merged, DistinctKeys (.object merged) →
      DistinctKeys (.object (fields.foldl (fun merged field => setField field.1 field.2 merged) merged)) := by
    induction fields with
    | nil => exact fun _ hmerged => hmerged
    | cons field rest ih =>
      intro merged hmerged
      rw [List.forall_mem_cons] at h
      exact ih h.2 _ (hmerged.setField h.1)
  exact hfold [] (.object .nil nofun)

mutual

theorem distinctKeys_merge (j : Json) : DistinctKeys j.merge := by
  cases j with
  | null => exact .null
  | bool b => exact .bool b
  | number n => exact .number n
  | string s => exact .string s
  | array items => exact .array (distinctKeys_mergeItems items)
  | object fields => exact distinctKeys_mergeFields (distinctKeys_mergeEach fields)

theorem distinctKeys_mergeItems (items : List Json) : ∀ item ∈ mergeItems items, DistinctKeys item := by
  cases items with
  | nil => exact nofun
  | cons item rest =>
    exact List.forall_mem_cons.mpr ⟨distinctKeys_merge item, distinctKeys_mergeItems rest⟩

theorem distinctKeys_mergeEach (fields : List (String × Json)) :
    ∀ field ∈ mergeEach fields, DistinctKeys field.2 := by
  cases fields with
  | nil => exact nofun
  | cons field rest =>
    exact List.forall_mem_cons.mpr ⟨distinctKeys_merge field.2, distinctKeys_mergeEach rest⟩

end

theorem distinctKeys_of_parse? {text : String} {j : Json} (h : parse? text = some j) : DistinctKeys j := by
  obtain ⟨written, _, rfl⟩ := Option.map_eq_some_iff.mp h
  exact distinctKeys_merge written

end

end Json

end Narrative

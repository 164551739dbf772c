import Narrative.Table

/-!
This module contains lists of entries under distinct names: looking up a name in them does not depend on their order,
so any order of the entries of a table makes up the same table.
-/

namespace Narrative.Table

variable {α : Type} {entries others : List (String × α)} {name : String} {value : α}

theorem lookup_eq_none_iff : entries.lookup name = none ↔ name ∉ entries.map (·.1) := by
  rw [List.lookup_eq_none_iff, List.mem_map]
  simp only [bne_iff_ne, ne_eq]
  constructor
  · rintro h ⟨entry, hmem, rfl⟩
    exact h entry hmem rfl
  · rintro h entry hmem rfl
    exact h ⟨entry, hmem, rfl⟩

/--
Under distinct names, to find a value is to be one of the entries.
-/
theorem lookup_eq_some_iff (h : (entries.map (·.1)).Nodup) :
    entries.lookup name = some value ↔ (name, value) ∈ entries := by
  induction entries with
  | nil => simp
  | cons head rest ih =>
    obtain ⟨other, held⟩ := head
    rw [List.map_cons, List.nodup_cons] at h
    rw [lookup_entry, List.mem_cons, Prod.mk.injEq]
    by_cases hname : name = other
    · subst hname
      have habsent : (name, value) ∉ rest := fun hmem => h.1 (List.mem_map.mpr ⟨_, hmem, rfl⟩)
      simp [habsent, eq_comm]
    · simp [hname, ih h.2]

theorem lookup_of_perm (hperm : entries.Perm others) (h : (entries.map (·.1)).Nodup) :
    entries.lookup name = others.lookup name := by
  have hnames := hperm.map (·.1)
  cases hfound : others.lookup name with
  | none =>
    rw [lookup_eq_none_iff] at hfound ⊢
    rwa [hnames.mem_iff]
  | some value =>
    rw [lookup_eq_some_iff (hnames.nodup_iff.mp h)] at hfound
    rw [lookup_eq_some_iff h]
    exact hperm.mem_iff.mpr hfound

theorem nodup_names (t : Table α) : (t.entries.map (·.1)).Nodup := by
  rw [List.nodup_iff_pairwise_ne, List.pairwise_map]
  apply t.sorted.imp
  intro a b hlt heq
  rw [heq] at hlt
  exact String.lt_irrefl _ hlt

theorem get?_foldl_insert (t : Table α) (h : (entries.map (·.1)).Nodup) (name : String) :
    (entries.foldl (fun t (name, value) => t.insert name value) t).get? name =
      (entries.lookup name).or (t.get? name) := by
  induction entries generalizing t with
  | nil => rfl
  | cons head rest ih =>
    obtain ⟨other, held⟩ := head
    rw [List.map_cons, List.nodup_cons] at h
    rw [List.foldl_cons, ih _ h.2, get?_insert, lookup_entry]
    by_cases hname : name = other
    · subst hname
      rw [lookup_eq_none_iff.mpr h.1]
      simp
    · simp [hname]

theorem get?_ofList (h : (entries.map (·.1)).Nodup) (name : String) :
    (ofList entries).get? name = entries.lookup name := by
  unfold ofList
  rw [get?_foldl_insert _ h, get?_empty, Option.or_none]

/--
The entries of a table make it up, in whatever order they come.
-/
theorem ofList_of_perm {t : Table α} (h : entries.Perm t.entries) : ofList entries = t := by
  have hnodup : (entries.map (·.1)).Nodup := (h.map (·.1)).nodup_iff.mpr t.nodup_names
  ext1 name
  rw [get?_ofList hnodup, lookup_of_perm h hnodup]
  rfl

end Narrative.Table

/-!
This module contains tables: finite maps from names to values that list their entries in the order of
the names (by code point). Two tables with the same values under every name are equal.
-/

namespace Narrative

/--
A finite map from names to values, its entries in strictly increasing order of names.
-/
structure Table (α : Type) where
  entries : List (String × α)
  sorted : entries.Pairwise (·.1 < ·.1)

namespace Table

variable {α : Type}

def empty : Table α := ⟨[], .nil⟩

instance : Inhabited (Table α) := ⟨empty⟩

instance [DecidableEq α] : DecidableEq (Table α) := fun s t =>
  if h : s.entries = t.entries then
    isTrue (by cases s; cases t; cases h; rfl)
  else
    isFalse (fun hst => h (hst ▸ rfl))

def get? (t : Table α) (name : String) : Option α :=
  t.entries.lookup name

def contains (t : Table α) (name : String) : Bool :=
  (t.get? name).isSome

/--
Put a value under a name into a sorted list of entries, in place of what stood there.
-/
def insertEntry (name : String) (value : α) : List (String × α) → List (String × α)
  | [] => [(name, value)]
  | (other, held) :: rest =>
    if name < other then
      (name, value) :: (other, held) :: rest
    else if name = other then
      (name, value) :: rest
    else
      (other, held) :: insertEntry name value rest

theorem mem_insertEntry {name : String} {value : α} {entries : List (String × α)}
    {entry : String × α} (h : entry ∈ insertEntry name value entries) :
    entry = (name, value) ∨ entry ∈ entries := by
  induction entries with
  | nil => simpa [insertEntry] using h
  | cons head rest ih =>
    simp only [insertEntry] at h
    split at h
    · simpa using h
    · split at h
      · simp only [List.mem_cons] at h ⊢
        exact h.imp id .inr
      · simp only [List.mem_cons] at h ⊢
        rcases h with h | h
        · exact .inr (.inl h)
        · exact (ih h).imp id .inr

theorem sorted_insertEntry {name : String} {value : α} {entries : List (String × α)}
    (h : entries.Pairwise (·.1 < ·.1)) :
    (insertEntry name value entries).Pairwise (·.1 < ·.1) := by
  induction entries with
  | nil => simp [insertEntry]
  | cons head rest ih =>
    obtain ⟨other, held⟩ := head
    rw [List.pairwise_cons] at h
    simp only [insertEntry]
    split
    · rename_i hlt
      refine .cons (fun entry hmem => ?_) (.cons h.1 h.2)
      rcases List.mem_cons.mp hmem with rfl | hmem
      · exact hlt
      · exact String.lt_trans hlt (h.1 entry hmem)
    · split
      · rename_i heq
        subst heq
        exact .cons h.1 h.2
      · rename_i hlt hne
        refine .cons (fun entry hmem => ?_) (ih h.2)
        rcases mem_insertEntry hmem with rfl | hmem
        · apply Decidable.byContradiction
          intro hle
          exact hne (String.le_antisymm (String.not_lt.mp hle) (String.not_lt.mp hlt))
        · exact h.1 entry hmem

/--
The table with a value under a name, in place of what stood there.
-/
def insert (t : Table α) (name : String) (value : α) : Table α :=
  ⟨insertEntry name value t.entries, sorted_insertEntry t.sorted⟩

/--
The table of a list of entries; of several under one name the last stays.
-/
def ofList (entries : List (String × α)) : Table α :=
  entries.foldl (fun t (name, value) => t.insert name value) empty

theorem lookup_entry (key name : String) (value : α) (rest : List (String × α)) :
    ((name, value) :: rest).lookup key = if key = name then some value else rest.lookup key := by
  by_cases h : key = name
  · simp [h]
  · rw [List.lookup_cons, beq_false_of_ne h, if_neg h]

theorem lookup_insertEntry (name : String) (value : α) (entries : List (String × α))
    (key : String) :
    (insertEntry name value entries).lookup key =
      if key = name then some value else entries.lookup key := by
  induction entries with
  | nil => simp [insertEntry, lookup_entry]
  | cons head rest ih =>
    obtain ⟨other, held⟩ := head
    simp only [insertEntry]
    split
    · rw [lookup_entry]
    · split
      · rename_i heq
        subst heq
        simp only [lookup_entry]
        split <;> rfl
      · rename_i hne
        simp only [lookup_entry, ih]
        by_cases ho : key = other
        · subst ho
          simp [Ne.symm hne]
        · simp [ho]

@[simp]
theorem get?_insert (t : Table α) (name : String) (value : α) (key : String) :
    (t.insert name value).get? key = if key = name then some value else t.get? key :=
  lookup_insertEntry name value t.entries key

@[simp]
theorem get?_empty (key : String) : (empty : Table α).get? key = none := rfl

theorem lookup_eq_none_of_forall_lt {name : String} {entries : List (String × α)}
    (h : ∀ entry ∈ entries, name < entry.1) : entries.lookup name = none := by
  induction entries with
  | nil => rfl
  | cons head rest ih =>
    have hne : name ≠ head.1 := by
      intro heq
      have hlt := h head (by simp)
      rw [heq] at hlt
      exact String.lt_irrefl _ hlt
    obtain ⟨other, held⟩ := head
    rw [lookup_entry, if_neg hne]
    exact ih (fun entry hmem => h entry (by simp [hmem]))

/--
A name stands only once in a sorted list of entries.
-/
theorem filter_of_lookup {name : String} {value : α} {entries : List (String × α)}
    (hs : entries.Pairwise (·.1 < ·.1)) (h : entries.lookup name = some value) :
    entries.filter (·.1 == name) = [(name, value)] := by
  induction entries with
  | nil => cases h
  | cons head rest ih =>
    obtain ⟨other, held⟩ := head
    rw [List.pairwise_cons] at hs
    rw [lookup_entry] at h
    split at h
    · rename_i heq
      subst heq
      cases h
      rw [List.filter_cons, if_pos (beq_self_eq_true name)]
      congr 1
      rw [List.filter_eq_nil_iff]
      intro entry hmem heq
      have hlt := hs.1 entry hmem
      rw [beq_iff_eq.mp heq] at hlt
      exact String.lt_irrefl name hlt
    · rename_i hne
      rw [List.filter_cons, if_neg (fun heq => hne (beq_iff_eq.mp heq).symm)]
      exact ih hs.2 h

/--
Sorted lists of entries with the same values under every name are the same list.
-/
theorem entries_ext {s t : List (String × α)} (hs : s.Pairwise (·.1 < ·.1))
    (ht : t.Pairwise (·.1 < ·.1)) (h : ∀ key, s.lookup key = t.lookup key) : s = t := by
  induction s generalizing t with
  | nil =>
    cases t with
    | nil => rfl
    | cons head rest =>
      have hnone := h head.1
      simp [lookup_entry head.1 head.1 head.2 rest] at hnone
  | cons first rest ih =>
    cases t with
    | nil =>
      have hnone := h first.1
      simp [lookup_entry first.1 first.1 first.2 rest] at hnone
    | cons head others =>
      obtain ⟨a, x⟩ := first
      obtain ⟨b, y⟩ := head
      rw [List.pairwise_cons] at hs ht
      have hab : a = b := by
        apply String.le_antisymm
        · apply String.not_lt.mp
          intro hlt
          have hnone : ((a, x) :: rest).lookup b = none := by
            refine lookup_eq_none_of_forall_lt (fun entry hmem => ?_)
            rcases List.mem_cons.mp hmem with rfl | hmem
            · exact hlt
            · exact String.lt_trans hlt (hs.1 entry hmem)
          rw [h b] at hnone
          simp at hnone
        · apply String.not_lt.mp
          intro hlt
          have hnone : ((b, y) :: others).lookup a = none := by
            refine lookup_eq_none_of_forall_lt (fun entry hmem => ?_)
            rcases List.mem_cons.mp hmem with rfl | hmem
            · exact hlt
            · exact String.lt_trans hlt (ht.1 entry hmem)
          rw [← h a] at hnone
          simp at hnone
      subst hab
      have hxy : x = y := by simpa [lookup_entry] using h a
      subst hxy
      congr 1
      refine ih hs.2 ht.2 (fun key => ?_)
      by_cases hkey : key = a
      · subst hkey
        rw [lookup_eq_none_of_forall_lt hs.1, lookup_eq_none_of_forall_lt ht.1]
      · simpa [lookup_entry, hkey] using h key

@[ext]
theorem ext {s t : Table α} (h : ∀ key, s.get? key = t.get? key) : s = t := by
  have hentries : s.entries = t.entries := entries_ext s.sorted t.sorted h
  cases s
  cases t
  cases hentries
  rfl

end Table

end Narrative

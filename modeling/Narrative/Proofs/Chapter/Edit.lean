import Mathlib.Data.List.Basic
import Narrative.Chapter.Decoder
import Narrative.Proofs.Json.Reordering

/-!
This module contains edits of one part of a JSON value, and what decoders make of the edited value. A decoder follows
an edit if the edit shows as an update of what is decoded. Following is compositional: a decoder of records, lists or
objects follows an edit of one part if the decoder of the part follows the edit of it.
-/

namespace Narrative

namespace Json

/--
Edit one field of an object that has it.
-/
def editField (name : String) (edit : Json → Option Json) : Json → Option Json
  | .object fields => do
    let value ← fields.lookup name
    return .object (setField name (← edit value) fields)
  | _ => none

/--
Edit one item of a list that has it.
-/
def editItem (index : Nat) (edit : Json → Option Json) : Json → Option Json
  | .array items => do
    let item ← items[index]?
    return .array (items.set index (← edit item))
  | _ => none

/--
Edit one field of a record, which is an object or the list of its fields' values in the order of their names.
-/
def editRecord (names : List String) (name : String) (edit : Json → Option Json) : Json → Option Json
  | .array values => editItem (names.idxOf name) edit (.array values)
  | other => editField name edit other

section

variable {names : List String} {name : String} {index : Nat} {edit : Json → Option Json} {j edited : Json}

theorem editRecord_object (fields : List (String × Json)) :
    editRecord names name edit (.object fields) = editField name edit (.object fields) := rfl

theorem editRecord_array (values : List Json) :
    editRecord names name edit (.array values) = editItem (names.idxOf name) edit (.array values) := rfl

theorem exists_of_editField (h : editField name edit j = some edited) :
    ∃ fields value value', j = .object fields ∧ fields.lookup name = some value ∧ edit value = some value' ∧
      edited = .object (setField name value' fields) := by
  cases j with
  | object fields =>
    obtain ⟨value, hvalue, h⟩ := Option.bind_eq_some_iff.mp h
    obtain ⟨value', hvalue', h⟩ := Option.bind_eq_some_iff.mp h
    cases h
    exact ⟨fields, value, value', rfl, hvalue, hvalue', rfl⟩
  | null | bool | number | string | array => cases h

theorem exists_of_editItem (h : editItem index edit j = some edited) :
    ∃ items item item', j = .array items ∧ items[index]? = some item ∧ edit item = some item' ∧
      edited = .array (items.set index item') := by
  cases j with
  | array items =>
    obtain ⟨item, hitem, h⟩ := Option.bind_eq_some_iff.mp h
    obtain ⟨item', hitem', h⟩ := Option.bind_eq_some_iff.mp h
    cases h
    exact ⟨items, item, item', rfl, hitem, hitem', rfl⟩
  | null | bool | number | string | object => cases h

theorem ne_null_of_editItem (h : editItem index edit j = some edited) : j ≠ .null ∧ edited ≠ .null := by
  obtain ⟨_, _, _, rfl, -, -, rfl⟩ := exists_of_editItem h
  exact ⟨nofun, nofun⟩

theorem ne_null_of_editRecord (h : editRecord names name edit j = some edited) : j ≠ .null ∧ edited ≠ .null := by
  cases j with
  | object fields =>
    rw [editRecord_object] at h
    obtain ⟨_, _, _, -, -, -, rfl⟩ := exists_of_editField h
    exact ⟨nofun, nofun⟩
  | array values =>
    rw [editRecord_array] at h
    exact ne_null_of_editItem h
  | null | bool | number | string => cases h

end

theorem lookup_setField (name : String) (value : Json) (fields : List (String × Json)) (key : String) :
    (setField name value fields).lookup key = if key = name then some value else fields.lookup key := by
  induction fields with
  | nil => rw [setField, Table.lookup_entry]
  | cons field rest ih =>
    obtain ⟨other, held⟩ := field
    unfold setField
    split
    · next heq =>
      subst heq
      rw [Table.lookup_entry, Table.lookup_entry]
      split <;> rfl
    · next hne =>
      rw [Table.lookup_entry, Table.lookup_entry, ih]
      by_cases hkey : key = other
      · subst hkey
        rw [if_pos rfl, if_neg hne, if_pos rfl]
      · rw [if_neg hkey, if_neg hkey]

/--
Under distinct names, a field is set by changing the one entry of its name.
-/
theorem setField_eq_map {name : String} {value : Json} {fields : List (String × Json)}
    (hnames : (fields.map (·.1)).Nodup) (hmem : name ∈ fields.map (·.1)) :
    setField name value fields = fields.map (fun field => if field.1 = name then (field.1, value) else field) := by
  induction fields with
  | nil => cases hmem
  | cons field rest ih =>
    rw [List.map_cons, List.nodup_cons] at hnames
    rw [List.map_cons, List.mem_cons] at hmem
    unfold setField
    rw [List.map_cons]
    split
    · next heq =>
      have hrest : rest.map (fun field => if field.1 = name then (field.1, value) else field) = rest.map id := by
        apply List.map_congr_left
        intro other hother
        have hother : other.1 ≠ name :=
          fun hname => hnames.1 (heq.trans hname.symm ▸ List.mem_map_of_mem hother)
        rw [if_neg hother, id]
      rw [hrest, List.map_id]
    · next hne => rw [ih hnames.2 (hmem.resolve_left (Ne.symm hne))]

theorem DistinctKeys.of_lookup {fields : List (String × Json)} {name : String} {value : Json}
    (hkeys : DistinctKeys (.object fields)) (h : fields.lookup name = some value) : value.DistinctKeys := by
  cases hkeys with
  | object hnames hvalues => exact hvalues (name, value) ((Table.lookup_eq_some_iff hnames).mp h)

theorem DistinctKeys.of_getElem? {items : List Json} {index : Nat} {item : Json}
    (hkeys : DistinctKeys (.array items)) (h : items[index]? = some item) : item.DistinctKeys := by
  cases hkeys with
  | array hitems => exact hitems item (List.mem_of_getElem? h)

end Json

namespace Table

variable {α : Type}

def modifyEntries (name : String) (put : α → α) (entries : List (String × α)) : List (String × α) :=
  entries.map (fun (other, value) => (other, if other = name then put value else value))

/--
The table with the value under a name modified, if there is one.
-/
def modify (t : Table α) (name : String) (put : α → α) : Table α where
  entries := modifyEntries name put t.entries
  sorted := List.pairwise_map.mpr t.sorted

theorem lookup_modifyEntries (name : String) (put : α → α) (entries : List (String × α)) (key : String) :
    (modifyEntries name put entries).lookup key =
      (entries.lookup key).map (fun value => if key = name then put value else value) := by
  induction entries with
  | nil => rfl
  | cons entry rest ih =>
    obtain ⟨other, value⟩ := entry
    unfold modifyEntries at ih ⊢
    rw [List.map_cons, lookup_entry, lookup_entry, ih]
    by_cases hkey : key = other
    · subst hkey
      rw [if_pos rfl, if_pos rfl, Option.map_some]
    · rw [if_neg hkey, if_neg hkey]

theorem names_modifyEntries (name : String) (put : α → α) (entries : List (String × α)) :
    (modifyEntries name put entries).map (·.1) = entries.map (·.1) := by
  unfold modifyEntries
  rw [List.map_map]
  rfl

theorem ofList_modifyEntries {entries : List (String × α)} (hnames : (entries.map (·.1)).Nodup) (name : String)
    (put : α → α) : ofList (modifyEntries name put entries) = (ofList entries).modify name put := by
  have hmodified := hnames
  rw [← names_modifyEntries name put] at hmodified
  ext1 key
  rw [get?_ofList hmodified, lookup_modifyEntries, ← get?_ofList hnames]
  exact (lookup_modifyEntries name put _ key).symm

end Table

namespace Decoder

variable {α β : Type} {read : Json → Option α} {edit : Json → Option Json} {put : α → α}

section

variable {γ : Type} {r : γ → Option α} {s : γ → γ} {xs : List γ}

theorem mapM_map_of_forall (h : ∀ x ∈ xs, r (s x) = (r x).map put) :
    (xs.map s).mapM r = (xs.mapM r).map (List.map put) := by
  induction xs with
  | nil => rfl
  | cons x rest ih =>
    rw [List.forall_mem_cons] at h
    rw [List.map_cons, List.mapM_cons, List.mapM_cons, h.1, ih h.2]
    cases r x with
    | none => rfl
    | some a => cases rest.mapM r <;> rfl

theorem mapM_set {index : Nat} {x y : γ} (hx : xs[index]? = some x) (h : r y = (r x).map put) :
    (xs.set index y).mapM r = (xs.mapM r).map (·.modify index put) := by
  induction xs generalizing index with
  | nil => cases hx
  | cons first rest ih =>
    cases index with
    | zero =>
      cases hx
      rw [List.set_cons_zero, List.mapM_cons, List.mapM_cons, h]
      cases r x with
      | none => rfl
      | some a => cases rest.mapM r <;> rfl
    | succ index =>
      rw [List.set_cons_succ, List.mapM_cons, List.mapM_cons, ih hx]
      cases r first with
      | none => rfl
      | some a => cases rest.mapM r <;> rfl

end

/--
Whatever the edit leads to is decoded like the value before, up to the update: to an updated result, or to none.
-/
def Follows (read : Json → Option α) (edit : Json → Option Json) (put : α → α) : Prop :=
  ∀ ⦃j edited : Json⦄, j.DistinctKeys → edit j = some edited → read edited = (read j).map put

/--
A decoder of the fields of a record follows the edit of one of them.
-/
def FollowsField (name : String) (body : (String → Option Json) → Option α) (edit : Json → Option Json)
    (put : α → α) : Prop :=
  ∀ ⦃field : String → Option Json⦄ ⦃value value' : Json⦄, field name = some value → value.DistinctKeys →
    edit value = some value' → body (Function.update field name (some value')) = (body field).map put

/--
A decoder of the fields of an object follows the edit of one of them.
-/
def FollowsObject (name : String) (read : List (String × Json) → Option α) (edit : Json → Option Json)
    (put : α → α) : Prop :=
  ∀ ⦃fields : List (String × Json)⦄ ⦃value value' : Json⦄, fields.lookup name = some value → value.DistinctKeys →
    edit value = some value' → read (Json.setField name value' fields) = (read fields).map put

theorem lookup_zip (names : List String) (values : List Json) (h : values.length ≤ names.length) (name : String) :
    (names.zip values).lookup name = values[names.idxOf name]? := by
  induction names generalizing values with
  | nil =>
    obtain rfl := List.length_eq_zero_iff.mp (Nat.le_zero.mp h)
    rfl
  | cons other rest ih =>
    cases values with
    | nil => rfl
    | cons value values =>
      rw [List.zip_cons_cons, Table.lookup_entry, List.idxOf_cons]
      by_cases hname : name = other
      · subst hname
        simp
      · rw [if_neg hname, beq_false_of_ne (Ne.symm hname), ih values (Nat.le_of_succ_le_succ h)]
        rfl

/--
In a record that is a list, a value stands in the place of its name, and in that of no other.
-/
theorem lookup_zip_set {names : List String} {values : List Json} (h : values.length ≤ names.length) {name : String}
    {value : Json} (hvalue : values[names.idxOf name]? = some value) (value' : Json) :
    (fun key => (names.zip (values.set (names.idxOf name) value')).lookup key) =
      Function.update (fun key => (names.zip values).lookup key) name (some value') := by
  obtain ⟨hlt, -⟩ := List.getElem?_eq_some_iff.mp hvalue
  funext key
  rw [lookup_zip _ _ (by simpa using h), Function.update_apply, lookup_zip _ _ h, List.getElem?_set]
  by_cases hkey : key = name
  · subst hkey
    simp [hlt]
  · have hmem : name ∈ names := List.idxOf_lt_length_iff.mp (Nat.lt_of_lt_of_le hlt h)
    have hplace : names.idxOf name ≠ names.idxOf key := fun heq => hkey ((List.idxOf_inj hmem).mp heq).symm
    rw [if_neg hplace, if_neg hkey]

theorem FollowsField.record {names : List String} {name : String} {body : (String → Option Json) → Option α}
    (h : FollowsField name body edit put) :
    Follows (fun j => (record? names j).bind body) (Json.editRecord names name edit) put := by
  intro j edited hkeys hedit
  cases j with
  | object fields =>
    rw [Json.editRecord_object] at hedit
    obtain ⟨fields, value, value', ⟨⟩, hvalue, hvalue', rfl⟩ := Json.exists_of_editField hedit
    have hfield : (fun key => (Json.setField name value' fields).lookup key) =
        Function.update (fun key => fields.lookup key) name (some value') := by
      funext key
      rw [Json.lookup_setField, Function.update_apply]
    change body (fun key => (Json.setField name value' fields).lookup key) = (body (fun key => fields.lookup key)).map put
    rw [hfield]
    exact h hvalue (hkeys.of_lookup hvalue) hvalue'
  | array values =>
    rw [Json.editRecord_array] at hedit
    obtain ⟨values, value, value', ⟨⟩, hvalue, hvalue', rfl⟩ := Json.exists_of_editItem hedit
    simp only [record?, List.length_set]
    split
    · next hlength =>
      simp only [Option.bind_some, lookup_zip_set hlength hvalue]
      refine h ?_ (hkeys.of_getElem? hvalue) hvalue'
      rw [lookup_zip _ _ hlength, hvalue]
    -- A list that is too long stays so, and is refused before and after.
    · rfl
  | null | bool | number | string => cases hedit

/--
A record of one field that may be left out.
-/
theorem Follows.record_withDefault (h : Follows read edit put) (names : List String) (name : String) (default : α) :
    Follows (fun j => (record? names j).bind (fun field => withDefault? default read (field name)))
      (Json.editRecord names name edit) put := by
  apply FollowsField.record
  intro field value value' hfield hkeys hedit
  dsimp only
  rw [Function.update_self, hfield]
  exact h hkeys hedit

theorem nullable?_of_ne_null {j : Json} (h : j ≠ .null) : nullable? read j = (read j).map some := by
  cases j with
  | null => exact absurd rfl h
  | bool | number | string | array | object => rfl

/--
Null stands for nothing, so no edit may start from it or lead to it.
-/
theorem Follows.nullable (h : Follows read edit put)
    (hnull : ∀ ⦃j edited⦄, edit j = some edited → j ≠ .null ∧ edited ≠ .null) :
    Follows (nullable? read) edit (Option.map put) := by
  intro j edited hkeys hedit
  obtain ⟨hj, hedited⟩ := hnull hedit
  rw [nullable?_of_ne_null hj, nullable?_of_ne_null hedited, h hkeys hedit, Option.map_map, Option.map_map]
  rfl

theorem Follows.list (h : Follows read edit put) (index : Nat) :
    Follows (list? read) (Json.editItem index edit) (·.modify index put) := by
  intro j edited hkeys hedit
  obtain ⟨items, item, item', rfl, hitem, hitem', rfl⟩ := Json.exists_of_editItem hedit
  exact mapM_set hitem (h (hkeys.of_getElem? hitem) hitem')

theorem Follows.entries (h : Follows read edit put) (name : String) :
    Follows (entries? read) (Json.editField name edit) (Table.modifyEntries name put) := by
  intro j edited hkeys hedit
  obtain ⟨fields, value, value', rfl, hvalue, hvalue', rfl⟩ := Json.exists_of_editField hedit
  have hread := h (hkeys.of_lookup hvalue) hvalue'
  cases hkeys with
  | object hnames hvalues =>
    have hfield := (Table.lookup_eq_some_iff hnames).mp hvalue
    rw [Json.setField_eq_map hnames (List.mem_map_of_mem hfield)]
    apply mapM_map_of_forall
    rintro ⟨other, held⟩ hmem
    by_cases hother : other = name
    · subst hother
      -- The edit was made from the first value under the name, which is the only one.
      have hheld : held = value := by
        have hlookup := (Table.lookup_eq_some_iff hnames).mpr hmem
        rw [hvalue] at hlookup
        exact (Option.some.inj hlookup).symm
      subst hheld
      simp [hread, Function.comp_def]
    · simp [hother, Function.comp_def]

theorem names_of_entries? {fields : List (String × Json)} {entries : List (String × α)}
    (h : entries? read (.object fields) = some entries) : entries.map (·.1) = fields.map (·.1) := by
  simp only [entries?] at h
  induction fields generalizing entries with
  | nil =>
    cases h
    rfl
  | cons field rest ih =>
    rw [List.mapM_cons] at h
    obtain ⟨entry, hentry, h⟩ := Option.bind_eq_some_iff.mp h
    obtain ⟨entries, hentries, h⟩ := Option.bind_eq_some_iff.mp h
    obtain ⟨value, -, rfl⟩ := Option.map_eq_some_iff.mp hentry
    cases h
    rw [List.map_cons, List.map_cons, ih hentries]

theorem Follows.table (h : Follows read edit put) (name : String) :
    Follows (fun j => (entries? read j).map Table.ofList) (Json.editField name edit) (·.modify name put) := by
  intro j edited hkeys hedit
  dsimp only
  rw [h.entries name hkeys hedit, Option.map_map, Option.map_map]
  obtain ⟨fields, _, _, rfl, -, -, -⟩ := Json.exists_of_editField hedit
  cases hkeys with
  | object hnames =>
    apply Option.map_congr
    intro entries hentries
    exact Table.ofList_modifyEntries (names_of_entries? hentries ▸ hnames) name put

/--
An edit of a field neither adds nor removes one, so the same required fields are missing.
-/
theorem FollowsObject.document {name : String} {readFields : List (String × Json) → Option α} {j edited : Json}
    (h : FollowsObject name readFields edit put) (hkeys : j.DistinctKeys)
    (hedit : Json.editField name edit j = some edited) :
    document readFields edited = (document readFields j).map put := by
  obtain ⟨fields, value, value', rfl, hvalue, hvalue', rfl⟩ := Json.exists_of_editField hedit
  have hmissing : ∀ key, ((Json.setField name value' fields).lookup key).isNone = (fields.lookup key).isNone := by
    intro key
    rw [Json.lookup_setField]
    split
    · next heq => rw [heq, hvalue]; rfl
    · rfl
  simp only [Decoder.document, hmissing, h hvalue (hkeys.of_lookup hvalue) hvalue']
  split
  · cases readFields fields <;> rfl
  · rfl

end Decoder

end Narrative

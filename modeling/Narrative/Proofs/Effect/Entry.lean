import Narrative.Effect.Parser

/-!
This module contains the meaning of one entry of an object of effects, told from its key and its value alone. An entry
does one thing: it stocks the inventory, assigns a status or changes a stat. Otherwise there is an objection to it.
-/

namespace Narrative

namespace Json

mutual

/--
The values of a list that is nested to any depth, in order. Every other value stands for itself.
-/
def leaves : Json → List Json
  | .array values => leavesOf values
  | other => [other]

def leavesOf : List Json → List Json
  | [] => []
  | value :: rest => leaves value ++ leavesOf rest

end

end Json

namespace Effect

open Json (leaves leavesOf)

/--
The first value of a list that is not a text.
-/
def stranger? (values : List Json) : Option Json :=
  values.find? (·.string?.isNone)

/--
The ids that a value lists, unless there is a stranger among its leaves.
-/
def ids? (value : Json) : Option (List String) :=
  if (stranger? value.leaves).isNone then some (value.leaves.filterMap Json.string?) else none

def complaint (stranger : Json) : String :=
  s!"expected item ids, found {stranger}"

/--
What is read of leaves: a complaint about the stranger among them, and otherwise their texts.
-/
def itemsOfLeaves (values : List Json) : Except String (List String) :=
  match stranger? values with
  | some stranger => .error (complaint stranger)
  | none => .ok (values.filterMap Json.string?)

theorem itemsOfLeaves_append (front back : List Json) :
    itemsOfLeaves (front ++ back) =
      (itemsOfLeaves front).bind (fun found => (itemsOfLeaves back).map (found ++ ·)) := by
  have hfind : stranger? (front ++ back) = (stranger? front).or (stranger? back) := List.find?_append
  unfold itemsOfLeaves
  rw [hfind, List.filterMap_append]
  cases stranger? front with
  | some stranger => rfl
  | none => cases stranger? back <;> rfl

mutual

theorem items_eq (value : Json) : items value = itemsOfLeaves value.leaves := by
  cases value with
  | array values =>
    rw [items, leaves]
    exact itemsOf_eq values
  | null | bool | number | string | object => rfl

theorem itemsOf_eq (values : List Json) : itemsOf values = itemsOfLeaves (leavesOf values) := by
  cases values with
  | nil => rfl
  | cons value rest =>
    rw [itemsOf, leavesOf, itemsOfLeaves_append, ← items_eq value, ← itemsOf_eq rest]
    cases items value <;> rfl

end

/--
An entry of the inventory: items to take up, or items to give away.
-/
inductive Stocking where
  | add (items : List String)
  | remove (items : List String)

namespace Stocking

def effect : Stocking → Effect
  | .add items => .addItems items
  | .remove items => .removeItems items

/--
The inventory after an entry. Items that are held already are not taken up again.
-/
def apply (held : List String) : Stocking → List String
  | .add items => items.foldl Player.appendNew held
  | .remove items => held.filter (fun item => !items.contains item)

end Stocking

def inventoryKeys : List String := ["inventory", "inventory_add", "inventory_remove"]

def operation? (fields : List (String × Json)) : Option Stocking :=
  let action := (fields.lookup "action").bind Json.string?
  if action = some "add" then
    ((fields.lookup "items").bind ids?).map .add
  else if action = some "remove" then
    ((fields.lookup "items").bind ids?).map .remove
  else
    none

/--
What an entry does to the inventory. One with a stranger among its items does nothing.
-/
def stocking? (key : String) (value : Json) : Option Stocking :=
  match key with
  | "inventory" =>
    match value with
    | .object fields => operation? fields
    | _ => (ids? value).map .add
  | "inventory_add" => (ids? value).map .add
  | "inventory_remove" => (ids? value).map .remove
  | _ => none

/--
The text that an entry assigns to the status of its key.
-/
def assignment? (key : String) (value : Json) : Option String :=
  if "_status".toList <:+ key.toList then value.string? else none

/--
The amount by which an entry changes the stat of its key.
-/
def change? (key : String) (value : Json) : Option Int64 :=
  if key ∈ inventoryKeys then none else value.int64?

def itemsObjection? (fields : List (String × Json)) : Option String :=
  match fields.lookup "items" with
  | some value => (stranger? value.leaves).map complaint
  | none => some "inventory operation without items"

def operationObjection? (fields : List (String × Json)) : Option String :=
  match (fields.lookup "action").bind Json.string? with
  | some action =>
    if action = "add" ∨ action = "remove" then
      itemsObjection? fields
    else
      some s!"unknown inventory action '{action}'"
  | none => some "inventory operation without an action"

/--
What is wrong with an entry that does nothing.
-/
def objection? (key : String) (value : Json) : Option String :=
  match key with
  | "inventory" =>
    match value with
    | .object fields => operationObjection? fields
    | _ => (stranger? value.leaves).map complaint
  | "inventory_add" => (stranger? value.leaves).map complaint
  | "inventory_remove" => (stranger? value.leaves).map complaint
  | _ =>
    if (assignment? key value).isSome ∨ value.int64?.isSome then
      none
    else
      some s!"expected an integer delta, found {value}"

/--
What an entry is read as. It does one thing, or there is an objection to it.
-/
inductive Meaning (key : String) (value : Json) : Effect → Prop where
  | stocks {s : Stocking} (hstocks : stocking? key value = some s) (hassigns : assignment? key value = none)
      (hchanges : change? key value = none) (hobjection : objection? key value = none) : Meaning key value s.effect
  | assigns {s : String} (hstocks : stocking? key value = none) (hassigns : assignment? key value = some s)
      (hchanges : change? key value = none) (hobjection : objection? key value = none) :
      Meaning key value (.setStatus key s)
  | changes {delta : Int64} (hstocks : stocking? key value = none) (hassigns : assignment? key value = none)
      (hchanges : change? key value = some delta) (hobjection : objection? key value = none) :
      Meaning key value (.adjust key delta)
  | invalid {reason : String} (hstocks : stocking? key value = none) (hassigns : assignment? key value = none)
      (hchanges : change? key value = none) (hobjection : objection? key value = some reason) :
      Meaning key value (.invalid key reason)

section

variable {key : String} {value : Json} {e : Effect}

theorem change?_of_mem (h : key ∈ inventoryKeys) : change? key value = none := if_pos h

theorem assignment?_of_mem (h : key ∈ inventoryKeys) : assignment? key value = none := by
  apply if_neg
  simp only [inventoryKeys, List.mem_cons, List.not_mem_nil, or_false] at h
  rcases h with rfl | rfl | rfl <;> decide

theorem stocking?_eq_none (h : key ∉ inventoryKeys) : stocking? key value = none := by
  simp only [inventoryKeys, List.mem_cons, List.not_mem_nil, or_false, not_or] at h
  simp [stocking?, h]

/--
The items of an entry are read, or there is a stranger among them.
-/
theorem ofItems_cases (make : List String → Effect) (key : String) (value : Json) :
    (∃ found, ids? value = some found ∧ stranger? value.leaves = none ∧ ofItems make key value = make found) ∨
      ∃ stranger, ids? value = none ∧ stranger? value.leaves = some stranger ∧
        ofItems make key value = .invalid key (complaint stranger) := by
  unfold ofItems ids?
  rw [items_eq, itemsOfLeaves]
  cases stranger? value.leaves with
  | none => exact .inl ⟨_, rfl, rfl, rfl⟩
  | some stranger => exact .inr ⟨stranger, rfl, rfl, rfl⟩

/--
The items of an entry of the inventory are its value or stand in it.
-/
theorem meaning_ofItems (make : List String → Stocking) (listed : Json) (hkey : key ∈ inventoryKeys)
    (hstocks : stocking? key value = (ids? listed).map make)
    (hobjection : objection? key value = (stranger? listed.leaves).map complaint) :
    Meaning key value (ofItems (fun found => (make found).effect) key listed) := by
  rcases ofItems_cases (fun found => (make found).effect) key listed with
    ⟨found, hids, hnone, hread⟩ | ⟨stranger, hids, hsome, hread⟩
  · rw [hids] at hstocks
    rw [hnone] at hobjection
    rw [hread]
    exact .stocks hstocks (assignment?_of_mem hkey) (change?_of_mem hkey) hobjection
  · rw [hids] at hstocks
    rw [hsome] at hobjection
    rw [hread]
    exact .invalid hstocks (assignment?_of_mem hkey) (change?_of_mem hkey) hobjection

theorem meaning_withItems {fields : List (String × Json)} (make : List String → Stocking)
    (hstocks : operation? fields = ((fields.lookup "items").bind ids?).map make)
    (hobjection : operationObjection? fields = itemsObjection? fields) :
    Meaning "inventory" (.object fields) (ofOperation.withItems fields (fun found => (make found).effect)) := by
  have hkey : "inventory" ∈ inventoryKeys := by decide
  unfold ofOperation.withItems
  unfold itemsObjection? at hobjection
  cases hitems : fields.lookup "items" with
  | none =>
    rw [hitems] at hstocks hobjection
    exact .invalid hstocks (assignment?_of_mem hkey) (change?_of_mem hkey) hobjection
  | some listed =>
    rw [hitems, Option.bind_some] at hstocks
    rw [hitems] at hobjection
    exact meaning_ofItems make listed hkey hstocks hobjection

theorem meaning_ofOperation (fields : List (String × Json)) :
    Meaning "inventory" (.object fields) (ofOperation fields) := by
  have hassigns : assignment? "inventory" (.object fields) = none := assignment?_of_mem (by decide)
  have hchanges : change? "inventory" (.object fields) = none := change?_of_mem (by decide)
  unfold ofOperation
  cases haction : (fields.lookup "action").bind Json.string? with
  | none =>
    exact .invalid (by simp [stocking?, operation?, haction]) hassigns hchanges
      (by simp [objection?, operationObjection?, haction])
  | some action =>
    split
    · next heq =>
      cases heq
      exact meaning_withItems .add (by simp [operation?, haction]) (by simp [operationObjection?, haction])
    · next heq =>
      cases heq
      exact meaning_withItems .remove (by simp [operation?, haction])
        (by simp [operationObjection?, haction])
    · next other hadd hremove heq =>
      cases heq
      have hadd : action ≠ "add" := hadd
      have hremove : action ≠ "remove" := hremove
      exact .invalid (by simp [stocking?, operation?, haction, hadd, hremove]) hassigns hchanges
        (by simp [objection?, operationObjection?, haction, hadd, hremove])
    · next heq => cases heq

theorem meaning_inventory (value : Json) : Meaning "inventory" value (ofEntry "inventory" value) := by
  have hkey : "inventory" ∈ inventoryKeys := by decide
  cases value with
  | object fields => exact meaning_ofOperation fields
  | null => exact meaning_ofItems .add .null hkey rfl rfl
  | bool b => exact meaning_ofItems .add (.bool b) hkey rfl rfl
  | number n => exact meaning_ofItems .add (.number n) hkey rfl rfl
  | string s => exact meaning_ofItems .add (.string s) hkey rfl rfl
  | array listed => exact meaning_ofItems .add (.array listed) hkey rfl rfl

theorem assignment?_eq_some {s : String} :
    assignment? key value = some s ↔ Condition.isStatusKey key ∧ value = .string s := by
  have hvalue : value.string? = some s ↔ value = .string s := by
    cases value <;> simp [Json.string?]
  unfold assignment?
  rw [Option.ite_none_right_eq_some, hvalue, ← List.isSuffixOf_iff_suffix]
  rfl

/--
A value that does not assign a status is read as an amount, whatever the key.
-/
theorem ofValue_of_none (h : assignment? key value = none) :
    ofValue key value =
      (value.int64?.map (adjust key)).getD (.invalid key s!"expected an integer delta, found {value}") := by
  unfold ofValue
  cases hstatus : Condition.isStatusKey key with
  | false => cases value.int64? <;> rfl
  | true =>
    cases value with
    | string s =>
      rw [assignment?_eq_some.mpr ⟨hstatus, rfl⟩] at h
      cases h
    | number n => cases Json.int64? (.number n) <;> rfl
    | null | bool | array | object => rfl

theorem meaning_ofValue (h : key ∉ inventoryKeys) : Meaning key value (ofValue key value) := by
  have hstocks : stocking? key value = none := stocking?_eq_none h
  have hchanges : change? key value = value.int64? := if_neg h
  simp only [inventoryKeys, List.mem_cons, List.not_mem_nil, or_false, not_or] at h
  have hobjection : objection? key value =
      if (assignment? key value).isSome ∨ value.int64?.isSome then none
      else some s!"expected an integer delta, found {value}" := by
    simp [objection?, h]
  cases hassigns : assignment? key value with
  | some s =>
    obtain ⟨hstatus, rfl⟩ := assignment?_eq_some.mp hassigns
    unfold ofValue
    rw [hstatus]
    exact .assigns hstocks hassigns hchanges (by simpa [hassigns] using hobjection)
  | none =>
    rw [ofValue_of_none hassigns]
    cases hint : value.int64? with
    | none => exact .invalid hstocks hassigns (hchanges.trans hint) (by simpa [hassigns, hint] using hobjection)
    | some delta => exact .changes hstocks hassigns (hchanges.trans hint) (by simpa [hint] using hobjection)

theorem meaning_ofEntry (key : String) (value : Json) : Meaning key value (ofEntry key value) := by
  by_cases hkey : key ∈ inventoryKeys
  · simp only [inventoryKeys, List.mem_cons, List.not_mem_nil, or_false] at hkey
    rcases hkey with rfl | rfl | rfl
    · exact meaning_inventory value
    · exact meaning_ofItems .add value (by decide) rfl rfl
    · exact meaning_ofItems .remove value (by decide) rfl rfl
  · have hread : ofEntry key value = ofValue key value := by
      simp only [inventoryKeys, List.mem_cons, List.not_mem_nil, or_false, not_or] at hkey
      simp [ofEntry, hkey]
    rw [hread]
    exact meaning_ofValue hkey

end

end Effect

end Narrative

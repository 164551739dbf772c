import Narrative.Proofs.Condition.Clause
import Narrative.Proofs.Expr.Printing
import Narrative.Proofs.Table

/-!
This module contains the renaming of a stat in the expressions of a condition. A condition whose expressions have a name
bound to a stat holds when the renamed condition does, and renaming can be done in the JSON value before it is read.
-/

namespace Narrative

def Operand.rename (old new : String) : Operand → Operand
  | .name s => if s = old then .name new else .name s
  | .literal n => .literal n

def Expr.rename (old new : String) (e : Expr) : Expr :=
  { e with left := e.left.rename old new }

theorem Operand.value_rename (old new : String) (p : Player) (left : Operand) :
    (left.rename old new).value .empty p = left.value (Table.empty.insert old (p.stat new)) p := by
  cases left with
  | literal n => rfl
  | name s =>
    by_cases hs : s = old
    · simp [rename, value, hs]
    · simp [rename, value, hs]

theorem Operand.wellFormed_rename {old new : String} {left : Operand} (hnew : (Operand.name new).WellFormed)
    (h : left.WellFormed) : (left.rename old new).WellFormed := by
  cases left with
  | literal n => trivial
  | name s =>
    simp only [rename]
    split
    · exact hnew
    · exact h

theorem Expr.holds_rename (old new : String) (p : Player) (e : Expr) :
    (e.rename old new).holds .empty p = e.holds (Table.empty.insert old (p.stat new)) p :=
  congrArg (e.op.holds · e.right) (e.left.value_rename old new p)

namespace Condition

mutual

/--
The condition with a name replaced in its expressions. Clauses about a stat keep its name.
-/
def rename (old new : String) : Condition → Condition
  | .all parts => .all (renameParts old new parts)
  | .any parts => .any (renameParts old new parts)
  | .expr e => .expr (e.rename old new)
  | other => other

def renameParts (old new : String) : List Condition → List Condition
  | [] => []
  | part :: rest => part.rename old new :: renameParts old new rest

end

mutual

theorem met_rename (old new : String) (p : Player) :
    (c : Condition) → (c.rename old new).met p = c.holds (Table.empty.insert old (p.stat new)) p
  | .all parts => allHold_renameParts old new p parts
  | .any parts => anyHolds_renameParts old new p parts
  | .expr e => e.holds_rename old new p
  | .status _ (.text _) | .status _ (.number _) => rfl
  | .always | .compare .. | .hasItems _ | .lacksItems _ | .revealed _ | .notRevealed _ | .malformed _ => rfl

theorem allHold_renameParts (old new : String) (p : Player) : (parts : List Condition) →
    allHold .empty p (renameParts old new parts) = allHold (Table.empty.insert old (p.stat new)) p parts
  | [] => rfl
  | part :: rest => congrArg₂ (· && ·) (part.met_rename old new p) (allHold_renameParts old new p rest)

theorem anyHolds_renameParts (old new : String) (p : Player) : (parts : List Condition) →
    anyHolds .empty p (renameParts old new parts) = anyHolds (Table.empty.insert old (p.stat new)) p parts
  | [] => rfl
  | part :: rest => congrArg₂ (· || ·) (part.met_rename old new p) (anyHolds_renameParts old new p rest)

end

theorem renameParts_eq_map (old new : String) (parts : List Condition) :
    renameParts old new parts = parts.map (rename old new) := by
  induction parts with
  | nil => rfl
  | cons part rest ih => rw [renameParts, ih, List.map_cons]

/--
An expression is written anew with the other name. What is no expression stays as it is.
-/
def renameText (old new : String) (s : String) : String :=
  match Expr.parse s with
  | .ok e => (e.rename old new).text
  | .error _ => s

example : ["player_moral >= 60", "moral!=3", "player_moral?"].map (renameText "player_moral" "moral") =
    ["moral>=60", "moral!=3", "player_moral?"] := by
  decide +kernel

mutual

/--
The value with a name replaced in each of its texts that is read as an expression: the value itself, or an entry of a
list under `any` or `all`.
-/
def renameEntry (old new : String) : Json → Json
  | .string s => .string (renameText old new s)
  | .object fields => .object (renameFields old new fields)
  | other => other

def renameFields (old new : String) : List (String × Json) → List (String × Json)
  | [] => []
  | (key, value) :: rest =>
    let renamed :=
      match value with
      | .array items => if key = "any" ∨ key = "all" then .array (renameEntries old new items) else .array items
      | other => other
    (key, renamed) :: renameFields old new rest

def renameEntries (old new : String) : List Json → List Json
  | [] => []
  | item :: rest => renameEntry old new item :: renameEntries old new rest

end

section

variable {old new : String}

theorem renameEntries_eq_map (items : List Json) : renameEntries old new items = items.map (renameEntry old new) := by
  induction items with
  | nil => rfl
  | cons item rest ih => rw [renameEntries, ih, List.map_cons]

/--
The value of a field, renamed where it lists further conditions.
-/
def renameField (old new key : String) : Json → Json
  | .array items => if key = "any" ∨ key = "all" then .array (items.map (renameEntry old new)) else .array items
  | other => other

theorem renameFields_eq_map (fields : List (String × Json)) :
    renameFields old new fields = fields.map (fun (key, v) => (key, renameField old new key v)) := by
  induction fields with
  | nil => rfl
  | cons field rest ih =>
    obtain ⟨key, v⟩ := field
    cases v <;> simp [renameFields, ih, renameField, renameEntries_eq_map]

theorem rename_conjunction (clauses : List Condition) :
    (conjunction clauses).rename old new = conjunction (clauses.map (rename old new)) := by
  unfold conjunction
  split
  · rfl
  · rfl
  · next hempty hsingle =>
    rw [rename, renameParts_eq_map]
    split <;> simp_all

theorem IsTest.rename {c : Condition} (h : IsTest c) : c.rename old new = c := by
  cases h <;> rfl

theorem IsClause.rename {c : Condition} (h : IsClause c) : c.rename old new = c := by
  cases h with
  | test h => exact h.rename
  | @all tests h =>
    show Condition.all (renameParts old new tests) = .all tests
    rw [renameParts_eq_map, List.map_congr_left (fun c hc => (h c hc).rename), List.map_id']

theorem ofExpr_renameText (hnew : (Operand.name new).WellFormed) (s : String) :
    ofExpr (renameText old new s) = (ofExpr s).rename old new := by
  unfold renameText
  cases hparse : Expr.parse s with
  | ok e =>
    have hleft : (e.rename old new).left.WellFormed :=
      Operand.wellFormed_rename hnew (Expr.wellFormed_of_parse hparse)
    have hrenamed := Expr.parse_text_of_wellFormed hleft
    unfold ofExpr
    rw [hrenamed, hparse]
    rfl
  | error reason =>
    unfold ofExpr
    rw [hparse]
    rfl

theorem lookup_renameFields (fields : List (String × Json)) (key : String) :
    (renameFields old new fields).lookup key = (fields.lookup key).map (renameField old new key) := by
  rw [renameFields_eq_map]
  induction fields with
  | nil => rfl
  | cons field rest ih =>
    obtain ⟨other, v⟩ := field
    rw [List.map_cons, Table.lookup_entry, Table.lookup_entry, ih]
    split
    · next hkey =>
      subst hkey
      rfl
    · rfl

theorem map_rename_ofEntry {items : List Json}
    (h : ∀ item ∈ items, ofEntry (renameEntry old new item) = (ofEntry item).rename old new) :
    (items.map (renameEntry old new)).map ofEntry = renameParts old new (items.map ofEntry) := by
  rw [renameParts_eq_map, List.map_map, List.map_map]
  exact List.map_congr_left h

theorem ofAlternatives_renameField {v : Json}
    (h : ∀ items, v = .array items → ∀ item ∈ items,
      ofEntry (renameEntry old new item) = (ofEntry item).rename old new) :
    ofAlternatives (renameField old new "any" v) = (ofAlternatives v).rename old new := by
  cases v with
  | array items => exact congrArg any (map_rename_ofEntry (h items rfl))
  | null | bool | number | string | object => rfl

theorem ofField_renameField {key : String} {v : Json} (hkey : key ≠ "any")
    (h : ∀ items, v = .array items → ∀ item ∈ items,
      ofEntry (renameEntry old new item) = (ofEntry item).rename old new) :
    ofField key (renameField old new key v) = (ofField key v).rename old new := by
  unfold ofField
  split
  · next hall =>
    subst hall
    cases v with
    | array items => exact congrArg all (map_rename_ofEntry (h items rfl))
    | null | bool | number | string | object => rfl
  · next hall =>
    rw [(isClause_ofClause key v).rename]
    cases v with
    | array items => simp [renameField, hkey, hall]
    | null | bool | number | string | object => rfl

theorem ofEntry_renameEntry (hnew : (Operand.name new).WellFormed) (v : Json) :
    ofEntry (renameEntry old new v) = (ofEntry v).rename old new := by
  cases v with
  | string s => exact ofExpr_renameText hnew s
  | object fields =>
    -- Further conditions stand in a list under a key of the object.
    have hitems : ∀ key w, (key, w) ∈ fields → ∀ items, w = .array items → ∀ item ∈ items,
        ofEntry (renameEntry old new item) = (ofEntry item).rename old new := by
      rintro key w hfield items rfl item hitem
      exact ofEntry_renameEntry hnew item
    rw [renameEntry, ofEntry_object, ofEntry_object, lookup_renameFields]
    cases hany : fields.lookup "any" with
    | some alternatives => exact ofAlternatives_renameField (hitems _ _ (mem_of_lookup hany))
    | none =>
      simp only [Option.map_none, Option.getD_none]
      rw [rename_conjunction, renameFields_eq_map, List.map_map, List.map_map]
      congr 1
      apply List.map_congr_left
      intro field hfield
      apply ofField_renameField
      · intro hkey
        exact Table.lookup_eq_none_iff.mp hany (List.mem_map.mpr ⟨field, hfield, hkey⟩)
      · exact hitems _ _ hfield
  | null | bool | number | array => rfl
termination_by sizeOf v
decreasing_by
  exact Nat.lt_trans (sizeOf_item_lt hitem) (sizeOf_field_lt hfield)

/--
A value whose expressions have a name bound to a stat is satisfied just when the value written with that stat is.
-/
theorem entrySatisfied_insert (hnew : (Operand.name new).WellFormed) (p : Player) (v : Json) :
    EntrySatisfied (Table.empty.insert old (p.stat new)) p v ↔ EntrySatisfied .empty p (renameEntry old new v) := by
  rw [← holds_ofEntry, ← holds_ofEntry, ofEntry_renameEntry hnew, ← met_rename]
  rfl

end

end Condition

end Narrative

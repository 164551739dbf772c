import Narrative.Condition.Parser
import Narrative.Proofs.Expr.Grammar

/-!
This module contains the meaning of a condition, told from its JSON value alone: which values a player
satisfies. Reading a value as a condition and evaluating that comes to the same.
-/

namespace Narrative

open Text

def Comparison.Relates : Comparison → Int → Int → Prop
  | .lt, a, b => a < b
  | .gt, a, b => a > b
  | .le, a, b => a ≤ b
  | .ge, a, b => a ≥ b
  | .eq, a, b => a = b
  | .ne, a, b => a ≠ b

theorem Comparison.holds_iff {op : Comparison} {a b : Int64} :
    op.holds a b ↔ op.Relates a.toInt b.toInt := by
  cases op <;>
    simp [holds, Relates, Int64.lt_iff_toInt_lt, Int64.le_iff_toInt_le, Int64.toInt_inj]

/--
The number that a player's stat counts as.
-/
inductive Player.Measures (p : Player) (name : String) : Int → Prop where
  | held {n : Int64} (h : p.stats.get? name = some n) : p.Measures name n.toInt
  | absent (h : p.stats.get? name = none) : p.Measures name 0

theorem Player.measures_iff {p : Player} {name : String} {n : Int} :
    p.Measures name n ↔ n = (p.stat name).toInt := by
  unfold Player.stat
  constructor
  · intro h
    cases h with
    | held h => rw [h, Option.getD_some]
    | absent h => rw [h]; rfl
  · rintro rfl
    cases h : p.stats.get? name with
    | some n => exact .held h
    | none => exact .absent h

/--
The number that an operand stands for: a bound name for its value, any other name for the stat.
-/
inductive Operand.Stands (b : Bindings) (p : Player) : Operand → Int → Prop where
  | literal (n : Int64) : Stands b p (.literal n) n.toInt
  | bound {name : String} {n : Int64} (h : b.get? name = some n) :
      Stands b p (.name name) n.toInt
  | stat {name : String} {n : Int} (hbound : b.get? name = none) (h : p.Measures name n) :
      Stands b p (.name name) n

theorem Operand.stands_iff {b : Bindings} {p : Player} {left : Operand} {n : Int} :
    left.Stands b p n ↔ n = (left.value b p).toInt := by
  constructor
  · intro h
    cases h with
    | literal => rfl
    | bound h => rw [value, h, Option.getD_some]
    | stat hbound h => rw [value, hbound, Option.getD_none, Player.measures_iff.mp h]
  · rintro rfl
    cases left with
    | literal n => exact .literal n
    | name s =>
      simp only [value]
      cases h : b.get? s with
      | some n => exact .bound h
      | none => exact .stat h (Player.measures_iff.mpr rfl)

namespace Condition

/--
The text is an expression, and its comparison holds.
-/
def ExprSatisfied (b : Bindings) (p : Player) (s : String) : Prop :=
  ∃ e n, Expr.Reads s.toList e ∧ e.left.Stands b p n ∧ e.op.Relates n e.right.toInt

def StatSatisfies (p : Player) (key : String) (op : Comparison) (n : Int64) : Prop :=
  ∃ value, p.Measures key value ∧ op.Relates value n.toInt

/--
The value is an integer of 64 bits.
-/
def IsWord (v : Json) (n : Int64) : Prop :=
  v = .number (.int n.toInt)

/--
The ids of a value: a single one or a list of them.
-/
inductive Lists : Json → List String → Prop where
  | one (id : String) : Lists (.string id) [id]
  | many (ids : List String) : Lists (.array (ids.map .string)) ids

def StatusSatisfied (p : Player) (key : String) : Json → Prop
  | .string s => p.statuses.get? key = some s
  | v => ∃ n, IsWord v n ∧ p.Measures key n.toInt

def HasPlus : Json → Prop
  | .string s => '+' ∈ s.toList
  | _ => False

instance : DecidablePred HasPlus
  | .string s => inferInstanceAs (Decidable ('+' ∈ s.toList))
  | .null | .bool _ | .number _ | .array _ | .object _ => isFalse id

def ShorthandSatisfied (p : Player) (key : String) : Json → Prop
  | .string s => ∃ n : Int64, LeadsWith s.toList n.toInt ∧ StatSatisfies p key .ge n
  | _ => False

/--
What a stat is compared with: an integer that it reaches, as a number or as a text, or operators with
their integers, at least one and all of them true.
-/
def StatSatisfied (p : Player) (key : String) : Json → Prop
  | .object entries =>
    entries ≠ [] ∧ ∀ symbol operand, (symbol, operand) ∈ entries →
      ∃ op n, op.Spells symbol.toList ∧ IsWord operand n ∧ StatSatisfies p key op n
  | .string s => ∃ n : Int64, StatesInteger s.toList n.toInt ∧ StatSatisfies p key .ge n
  | v => ∃ n, IsWord v n ∧ StatSatisfies p key .ge n

/--
A clause of an object. The first line that applies decides.
-/
def ClauseSatisfied (p : Player) (key : String) (v : Json) : Prop :=
  if "_status".toList <:+ key.toList then StatusSatisfied p key v
  else if HasPlus v then ShorthandSatisfied p key v
  else if key = "inventory" then ∃ ids, Lists v ids ∧ ∀ id ∈ ids, id ∈ p.inventory
  else if key = "not_inventory" then ∃ ids, Lists v ids ∧ ∀ id ∈ ids, id ∉ p.inventory
  else if key = "revealed" then ∃ ids, Lists v ids ∧ ∀ id ∈ ids, id ∈ p.revealed
  else if key = "not_revealed" then ∃ ids, Lists v ids ∧ ∀ id ∈ ids, id ∉ p.revealed
  else StatSatisfied p key v

theorem sizeOf_item_lt {item : Json} {items : List Json} (h : item ∈ items) :
    sizeOf item < sizeOf (Json.array items) := by
  have := List.sizeOf_lt_of_mem h
  simp only [Json.array.sizeOf_spec]
  omega

theorem sizeOf_field_lt {key : String} {v : Json} {fields : List (String × Json)}
    (h : (key, v) ∈ fields) : sizeOf v < sizeOf (Json.object fields) := by
  have := List.sizeOf_lt_of_mem h
  simp only [Prod.mk.sizeOf_spec, Json.object.sizeOf_spec] at this ⊢
  omega

theorem mem_of_lookup {key : String} {v : Json} {fields : List (String × Json)}
    (h : fields.lookup key = some v) : (key, v) ∈ fields := by
  obtain ⟨before, after, rfl, -⟩ := List.lookup_eq_some_iff.mp h
  simp

/--
A nested value: an expression, or an object that an `any` decides alone and whose clauses are otherwise
all required.
-/
def EntrySatisfied (b : Bindings) (p : Player) : Json → Prop
  | .string s => ExprSatisfied b p s
  | .object fields =>
    match _h : fields.lookup "any" with
    | some (.array items) => ∃ item, ∃ _ : item ∈ items, EntrySatisfied b p item
    | some _ => False
    | none =>
      ∀ key v, (_ : (key, v) ∈ fields) →
        if key = "all" then
          ∃ items, ∃ _ : v = .array items, ∀ item, (_ : item ∈ items) → EntrySatisfied b p item
        else
          ClauseSatisfied p key v
  | _ => False
termination_by v => sizeOf v
decreasing_by
  · exact Nat.lt_trans (sizeOf_item_lt ‹_›) (sizeOf_field_lt (mem_of_lookup _h))
  · subst v
    exact Nat.lt_trans (sizeOf_item_lt ‹_›) (sizeOf_field_lt ‹_›)

/--
A value as a requirement, where one may be left out.
-/
def Satisfied (b : Bindings) (p : Player) : Json → Prop
  | .null => True
  | .object [] => True
  | .string s => Blank s.toList ∨ ExprSatisfied b p s
  | v => EntrySatisfied b p v

section

variable {b : Bindings} {p : Player}

theorem holds_expr {e : Expr} :
    (expr e).holds b p ↔ ∃ n, e.left.Stands b p n ∧ e.op.Relates n e.right.toInt := by
  simp [holds, Expr.holds, Comparison.holds_iff, Operand.stands_iff]

theorem holds_compare {key : String} {op : Comparison} {n : Int64} :
    (compare key op n).holds b p ↔ StatSatisfies p key op n := by
  simp [holds, Comparison.holds_iff, StatSatisfies, Player.measures_iff]

@[simp]
theorem holds_malformed {reason : String} : (malformed reason).holds b p = false := by
  simp [holds]

theorem holds_conjunction {clauses : List Condition} :
    (conjunction clauses).holds b p ↔ ∀ clause ∈ clauses, clause.holds b p := by
  unfold conjunction
  split
  · simp [holds]
  · simp
  · simp [holds, allHold_eq_all]

theorem int64?_eq_some {v : Json} {n : Int64} : v.int64? = some n ↔ IsWord v n := by
  unfold IsWord
  cases v with
  | number m =>
    cases m with
    | int m => simp [Json.int64?, Json.Number.int64?, word?_eq_some]
    | double x => simp [Json.int64?, Json.Number.int64?]
  | null | bool | string | array | object => simp [Json.int64?]

theorem holds_ofExpr {s : String} : (ofExpr s).holds b p ↔ ExprSatisfied b p s := by
  unfold ofExpr ExprSatisfied
  split
  · next e he =>
    rw [holds_expr]
    constructor
    · rintro ⟨n, hstands, hrel⟩
      exact ⟨e, n, Expr.parse_eq_ok.mp he, hstands, hrel⟩
    · rintro ⟨e', n, hreads, hstands, hrel⟩
      have heq : e = e' := Except.ok.inj (he.symm.trans (Expr.parse_eq_ok.mpr hreads))
      subst heq
      exact ⟨n, hstands, hrel⟩
  · next reason hreason =>
    simp only [holds_malformed, Bool.false_eq_true, false_iff]
    rintro ⟨e, n, hreads, -⟩
    rw [Expr.parse_eq_ok.mpr hreads] at hreason
    cases hreason

theorem holds_ofStatus {key : String} {v : Json} :
    (ofStatus key v).holds b p ↔ StatusSatisfied p key v := by
  unfold ofStatus
  split
  · simp [holds, StatusSatisfied, Player.status?]
  · next m =>
    unfold StatusSatisfied
    simp only [← int64?_eq_some, Json.int64?, Player.measures_iff, Int64.toInt_inj]
    split
    · next n hn =>
      simp only [holds, hn, Option.some.injEq, exists_eq_left', beq_iff_eq]
      exact eq_comm
    · next hn => simp [holds, hn]
  · next hstring hnumber =>
    unfold StatusSatisfied IsWord
    cases v <;> simp_all [holds]

theorem mapM_eq_ok {read : Json → Except String String}
    (hread : ∀ item s, read item = .ok s ↔ item = .string s) {items : List Json}
    {found : List String} : items.mapM read = .ok found ↔ items = found.map .string := by
  induction items generalizing found with
  | nil => cases found <;> simp [pure, Except.pure]
  | cons item items ih =>
    rw [List.mapM_cons]
    cases found with
    | nil =>
      cases hitem : read item <;> cases hitems : items.mapM read <;>
        simp [bind, Except.bind, pure, Except.pure]
    | cons s found =>
      rw [List.map_cons, List.cons.injEq, ← hread, ← ih]
      cases hitem : read item <;> cases hitems : items.mapM read <;>
        simp [bind, Except.bind, pure, Except.pure]

theorem ids_array_eq_ok {key : String} {items : List Json} {found : List String} :
    ids key (.array items) = .ok found ↔ items = found.map .string := by
  unfold ids
  apply mapM_eq_ok
  intro item s
  cases item <;> simp

theorem ids_eq_ok (key : String) {v : Json} {found : List String} :
    ids key v = .ok found ↔ Lists v found := by
  constructor
  · intro h
    cases v with
    | string s =>
      cases h
      exact .one s
    | array items =>
      obtain rfl := ids_array_eq_ok.mp h
      exact .many found
    | null | bool | number | object => cases h
  · intro h
    cases h with
    | one => rfl
    | many => exact ids_array_eq_ok.mpr rfl

theorem holds_ofIds {make : List String → Condition} {key : String} {v : Json} :
    (ofIds make key v).holds b p ↔ ∃ found, Lists v found ∧ (make found).holds b p := by
  unfold ofIds
  simp only [← ids_eq_ok key]
  split
  · next found hfound => simp [hfound]
  · next reason hreason => simp [hreason]

theorem ofSymbol?_eq_some {symbol : String} {op : Comparison} :
    Comparison.ofSymbol? symbol = some op ↔ op.Spells symbol.toList := by
  rw [← Comparison.ofSymbol?_eq_some, String.ofList_toList]

theorem holds_ofOperator {key symbol : String} {operand : Json} :
    (ofOperator key symbol operand).holds b p ↔
      ∃ op n, op.Spells symbol.toList ∧ IsWord operand n ∧ StatSatisfies p key op n := by
  unfold ofOperator
  simp only [← ofSymbol?_eq_some, ← int64?_eq_some]
  split
  · next hsymbol => simp [hsymbol]
  · next op hsymbol =>
    split
    · next n hoperand => simp [hsymbol, hoperand, holds_compare]
    · next hoperand => simp [hsymbol, hoperand]

theorem holds_ofOperators {key : String} {entries : List (String × Json)} :
    (ofOperators key entries).holds b p ↔ StatSatisfied p key (.object entries) := by
  unfold ofOperators StatSatisfied
  split
  · simp
  · next hne =>
    simp only [holds_conjunction, List.forall_mem_map, Prod.forall, holds_ofOperator]
    exact ⟨fun h => ⟨hne, h⟩, fun h => h.2⟩

theorem holds_ofShorthand {key s : String} :
    (ofShorthand key s).holds b p ↔ ShorthandSatisfied p key (.string s) := by
  unfold ofShorthand ShorthandSatisfied
  simp only [← leadingInteger?_eq_some]
  split
  · next n hn => simp [hn, holds_compare]
  · next hn => simp [hn]

theorem holds_ofStat {key : String} {v : Json} :
    (ofStat key v).holds b p ↔ StatSatisfied p key v := by
  unfold ofStat
  split
  · exact holds_ofOperators
  · next m =>
    unfold StatSatisfied
    simp only [← int64?_eq_some, Json.int64?]
    split
    · next n hn => simp [hn, holds_compare]
    · next hn => simp [hn]
  · next s =>
    unfold StatSatisfied
    simp only [← int64?_trim_eq_some]
    split
    · next n hn => simp [hn, holds_compare]
    · next hn => simp [hn]
  · unfold StatSatisfied IsWord
    cases v <;> simp_all [holds_malformed]

theorem holds_ofPlain {key : String} {v : Json} (hstatus : ¬ "_status".toList <:+ key.toList)
    (hplus : ¬ HasPlus v) : (ofPlain key v).holds b p ↔ ClauseSatisfied p key v := by
  unfold ofPlain ClauseSatisfied
  rw [if_neg hstatus, if_neg hplus]
  split
  · simp [holds_ofIds, holds, Player.hasAllItems, Player.hasItem]
  · simp [holds_ofIds, holds, Player.hasAnyItem, Player.hasItem]
  · simp [holds_ofIds, holds, Player.isRevealed]
  · simp [holds_ofIds, holds, Player.isRevealed]
  · next h₁ h₂ h₃ h₄ =>
    rw [if_neg h₁, if_neg h₂, if_neg h₃, if_neg h₄]
    exact holds_ofStat

theorem holds_ofClause {key : String} {v : Json} :
    (ofClause key v).holds b p ↔ ClauseSatisfied p key v := by
  unfold ofClause
  have hkey : isStatusKey key ↔ "_status".toList <:+ key.toList := List.isSuffixOf_iff_suffix
  split
  · next hstatus =>
    rw [ClauseSatisfied, if_pos (hkey.mp hstatus)]
    exact holds_ofStatus
  · next hstatus =>
    rw [hkey] at hstatus
    split
    · next s =>
      split
      · next hplus =>
        have hplus : HasPlus (.string s) := List.contains_iff_mem.mp hplus
        rw [ClauseSatisfied, if_neg hstatus, if_pos hplus]
        exact holds_ofShorthand
      · next hplus => exact holds_ofPlain hstatus (fun h => hplus (List.contains_iff_mem.mpr h))
    · next hstring =>
      refine holds_ofPlain hstatus ?_
      intro hplus
      cases v with
      | string s => exact hstring s rfl
      | _ => exact hplus

theorem ofEntries_eq_map (items : List Json) : ofEntries items = items.map ofEntry := by
  induction items with
  | nil => simp [ofEntries]
  | cons item items ih => simp [ofEntries, ih]

/--
The clause of a field, which is a list of further conditions for the key `all`.
-/
def ofField (key : String) (v : Json) : Condition :=
  if key = "all" then
    match v with
    | .array items => .all (items.map ofEntry)
    | other => .malformed s!"'all' expects a list, found {other}"
  else
    ofClause key v

theorem ofClauses_eq_map (fields : List (String × Json)) :
    ofClauses fields = fields.map (fun (key, v) => ofField key v) := by
  induction fields with
  | nil => simp [ofClauses]
  | cons field fields ih =>
    obtain ⟨key, v⟩ := field
    cases v <;> simp [ofClauses, ih, ofField, ofEntries_eq_map]

/--
The alternatives that the key `any` holds.
-/
def ofAlternatives : Json → Condition
  | .array items => .any (items.map ofEntry)
  | other => .malformed s!"'any' expects a list, found {other}"

theorem ofAny_eq_map (fields : List (String × Json)) :
    ofAny fields = (fields.lookup "any").map ofAlternatives := by
  induction fields with
  | nil => simp [ofAny]
  | cons field fields ih =>
    obtain ⟨key, v⟩ := field
    rw [Table.lookup_entry]
    by_cases hkey : key = "any"
    · cases v <;> simp [ofAny, hkey, ofAlternatives, ofEntries_eq_map]
    · cases v <;> simp [ofAny, hkey, Ne.symm hkey, ih]

theorem holds_ofField {key : String} {v : Json}
    (hitems : ∀ items, v = .array items → ∀ item ∈ items,
      ((ofEntry item).holds b p ↔ EntrySatisfied b p item)) :
    (ofField key v).holds b p ↔
      if key = "all" then ∃ items, v = .array items ∧ ∀ item ∈ items, EntrySatisfied b p item
      else ClauseSatisfied p key v := by
  unfold ofField
  split
  · cases v with
    | array items =>
      simp only [holds, allHold_eq_all, List.all_map, List.all_eq_true, Function.comp_apply,
        Json.array.injEq, exists_eq_left']
      exact forall₂_congr (hitems items rfl)
    | null | bool | number | string | object => simp
  · exact holds_ofClause

theorem entrySatisfied_object {fields : List (String × Json)} :
    EntrySatisfied b p (.object fields) ↔
      match fields.lookup "any" with
      | some (.array items) => ∃ item ∈ items, EntrySatisfied b p item
      | some _ => False
      | none =>
        ∀ key v, (key, v) ∈ fields →
          if key = "all" then ∃ items, v = .array items ∧ ∀ item ∈ items, EntrySatisfied b p item
          else ClauseSatisfied p key v := by
  rw [EntrySatisfied]
  split
  · next items hany => simp [hany]
  · next other hother hany =>
    rw [hany]
    split
    · next items heq => exact absurd (Option.some.inj heq) (hother items)
    · rfl
    · next heq => cases heq
  · next hany => simp only [hany, exists_prop]

theorem holds_ofEntry (v : Json) : (ofEntry v).holds b p ↔ EntrySatisfied b p v := by
  cases v with
  | string s =>
    rw [ofEntry, EntrySatisfied]
    exact holds_ofExpr
  | object fields =>
    -- The induction is on the size of the value: entries stand in a list under a key of the object.
    have hitems : ∀ key v, (key, v) ∈ fields → ∀ items, v = .array items → ∀ item ∈ items,
        ((ofEntry item).holds b p ↔ EntrySatisfied b p item) := by
      rintro key v hfield items rfl item hitem
      exact holds_ofEntry item
    rw [ofEntry, entrySatisfied_object, ofAny_eq_map, ofClauses_eq_map]
    cases hany : fields.lookup "any" with
    | none =>
      simp only [Option.map_none, holds_conjunction, List.forall_mem_map, Prod.forall]
      exact forall₃_congr (fun key v hfield => holds_ofField (hitems key v hfield))
    | some v =>
      have hitem := hitems _ _ (mem_of_lookup hany)
      cases v with
      | array items =>
        simp only [Option.map_some, ofAlternatives, holds, anyHolds_eq_any, List.any_map,
          List.any_eq_true, Function.comp_apply]
        exact exists_congr (fun item => and_congr_right (hitem items rfl item))
      | _ => simp [ofAlternatives]
  | null | bool | number | array => simp [ofEntry, EntrySatisfied]
termination_by sizeOf v
decreasing_by exact Nat.lt_trans (sizeOf_item_lt hitem) (sizeOf_field_lt hfield)

theorem holds_iff_satisfied (v : Json) : (ofJson v).holds b p ↔ Satisfied b p v := by
  cases v with
  | null => simp [ofJson, Satisfied, holds]
  | string s =>
    simp only [ofJson, Satisfied]
    split
    · next hblank =>
      rw [List.isEmpty_iff, trim_eq_nil_iff] at hblank
      simp [holds, hblank]
    · next hblank =>
      rw [List.isEmpty_iff, trim_eq_nil_iff] at hblank
      rw [ofEntry, holds_ofExpr]
      simp [hblank]
  | object fields =>
    cases fields with
    | nil => simp [ofJson, Satisfied, holds]
    | cons => exact holds_ofEntry _
  | bool | number | array => exact holds_ofEntry _

/--
A condition means what its specification says, both where it stands alone and as an entry of a list, where it has to
state something.
-/
theorem holds_ofJson (v : Json) :
    ((ofJson v).holds b p ↔ Satisfied b p v) ∧ ((ofEntry v).holds b p ↔ EntrySatisfied b p v) :=
  ⟨holds_iff_satisfied v, holds_ofEntry v⟩

end

end Condition

end Narrative

import Narrative.Proofs.Condition.Clause
import Narrative.Proofs.Expr.Printing
import Narrative.Proofs.Json.RoundTrip

/-!
This module contains the six spellings of the requirement that a stat is at least a number: as a number, as a text, as a
shorthand, under an operator, and as an expression, in a list or alone. They are read in four different ways, and no
player can tell them apart.
-/

namespace Narrative

open Text

namespace Text

theorem plus_notMem_of_isInteger {cs : List Char} {n : Int} (h : IsInteger cs n) : '+' ∉ cs := by
  have hdigit : ¬Char.isDigit '+' := by decide
  intro hplus
  cases h with
  | plain h => exact hdigit (h.2.1 _ hplus)
  | negated h =>
    rcases List.mem_cons.mp hplus with hminus | hplus
    · exact absurd hminus (by decide)
    · exact hdigit (h.2.1 _ hplus)

theorem statesInteger_of_isInteger {cs : List Char} {n : Int} (h : IsInteger cs n) : StatesInteger cs n :=
  ⟨[], cs, [], nofun, .integer h, nofun, by simp⟩

theorem leadsWith_of_isInteger {cs rest : List Char} {n : Int} (h : IsInteger cs n) (hrest : Stops Char.isDigit rest) :
    LeadsWith (cs ++ rest) n :=
  ⟨[], cs, rest, nofun, .integer h, hrest, rfl⟩

end Text

namespace Condition

/--
A key that a stat has in an object, and that is a name in expressions.
-/
structure IsStatKey (key : String) : Prop where
  name : IsName key.toList
  noStatus : ¬"_status".toList <:+ key.toList
  unreserved : key ∉ ["any", "all", "inventory", "not_inventory", "revealed", "not_revealed"]

/--
The values that require a stat to be at least a number. In a text the number is any numeral of it.
-/
inductive SpellsAtLeast (key : String) (n : Int64) : Json → Prop where
  | number : SpellsAtLeast key n (.object [(key, .number (.int n.toInt))])
  | text {digits : String} (h : IsInteger digits.toList n.toInt) :
      SpellsAtLeast key n (.object [(key, .string digits)])
  | shorthand {digits : String} (h : IsInteger digits.toList n.toInt) :
      SpellsAtLeast key n (.object [(key, .string (digits ++ "+"))])
  | operator : SpellsAtLeast key n (.object [(key, .object [(">=", .number (.int n.toInt))])])
  | listed {digits : String} (h : IsInteger digits.toList n.toInt) :
      SpellsAtLeast key n (.object [("all", .array [.string (key ++ ">=" ++ digits)])])
  | expression {digits : String} (h : IsInteger digits.toList n.toInt) :
      SpellsAtLeast key n (.string (key ++ ">=" ++ digits))

/--
The conditions that the spellings become.
-/
inductive IsAtLeast (key : String) (n : Int64) : Condition → Prop where
  | compare : IsAtLeast key n (.compare key .ge n)
  | expr : IsAtLeast key n (.expr ⟨.name key, .ge, n⟩)
  | all {c : Condition} (h : IsAtLeast key n c) : IsAtLeast key n (.all [c])

variable {key : String} {n : Int64} {v : Json} {c : Condition}

namespace IsAtLeast

theorem problems (h : IsAtLeast key n c) : c.problems = [] := by
  induction h with
  | compare | expr => simp [Condition.problems]
  | all _ ih => simp [Condition.problems, problemsOf, ih]

/--
Only an expression can be about a bound value in place of the stat.
-/
theorem holds_eq (h : IsAtLeast key n c) {b : Bindings} (hfree : b.get? key = none) (p : Player) :
    c.holds b p = decide (n ≤ p.stat key) := by
  induction h with
  | compare => simp [holds, Comparison.holds]
  | expr => simp [holds, Expr.holds, Comparison.holds, Operand.value, hfree]
  | all _ ih => simp [holds, allHold, ih]

end IsAtLeast

theorem isStatusKey_of_isStatKey (h : IsStatKey key) : isStatusKey key = false :=
  Bool.eq_false_iff.mpr (mt List.isSuffixOf_iff_suffix.mp h.noStatus)

/--
Nothing but a plus keeps the value of a stat key from being compared with the stat.
-/
theorem ofClause_eq_ofStat (h : IsStatKey key) (hplus : ¬HasPlus v) : ofClause key v = ofStat key v := by
  have hplain : ofPlain key v = ofStat key v := by
    have hunreserved := h.unreserved
    unfold ofPlain
    split
    case h_5 => rfl
    all_goals simp at hunreserved
  unfold ofClause
  rw [isStatusKey_of_isStatKey h, if_neg Bool.false_ne_true]
  split
  · rw [if_neg (mt List.contains_iff_mem.mp hplus), hplain]
  · exact hplain

theorem ofEntry_singleton (h : IsStatKey key) (v : Json) : ofEntry (.object [(key, v)]) = ofClause key v := by
  have hunreserved := h.unreserved
  simp only [List.mem_cons, not_or] at hunreserved
  rw [ofEntry_object]
  simp [conjunction, ofField, Table.lookup_entry, Ne.symm hunreserved.1, hunreserved.2.1]

theorem ofClause_number (hkey : IsStatKey key) : ofClause key (.number (.int n.toInt)) = .compare key .ge n := by
  rw [ofClause_eq_ofStat hkey id]
  simp [ofStat, Json.Number.int64?, word?_toInt]

theorem ofClause_text {digits : String} (hkey : IsStatKey key) (h : IsInteger digits.toList n.toInt) :
    ofClause key (.string digits) = .compare key .ge n := by
  have hplus : ¬HasPlus (.string digits) := plus_notMem_of_isInteger h
  have hread := int64?_trim_eq_some.mpr (statesInteger_of_isInteger h)
  rw [ofClause_eq_ofStat hkey hplus, ofStat, hread]

theorem ofClause_shorthand {digits : String} (hkey : IsStatKey key) (h : IsInteger digits.toList n.toInt) :
    ofClause key (.string (digits ++ "+")) = .compare key .ge n := by
  have hplus : (digits ++ "+").toList.contains '+' := by
    rw [List.contains_iff_mem, String.toList_append]
    exact List.mem_append_right _ (List.mem_singleton_self '+')
  have hread : leadingInteger? (digits ++ "+").toList = some n := by
    rw [String.toList_append]
    exact leadingInteger?_eq_some.mpr (leadsWith_of_isInteger h (stops_cons.mpr (by decide)))
  unfold ofClause
  rw [isStatusKey_of_isStatKey hkey, if_neg Bool.false_ne_true]
  dsimp only
  rw [if_pos hplus, ofShorthand, hread]

theorem ofClause_operator (hkey : IsStatKey key) :
    ofClause key (.object [(">=", .number (.int n.toInt))]) = .compare key .ge n := by
  have hsymbol : Comparison.ofSymbol? ">=" = some .ge := by decide
  rw [ofClause_eq_ofStat hkey id]
  simp [ofStat, ofOperators, conjunction, ofOperator, hsymbol, Json.int64?, Json.Number.int64?, word?_toInt]

theorem parse_atLeast {digits : String} (hname : IsName key.toList) (h : IsInteger digits.toList n.toInt) :
    Expr.parse (key ++ ">=" ++ digits) = .ok ⟨.name key, .ge, n⟩ := by
  rw [Expr.parse_eq_ok_iff_states]
  refine ⟨⟨[], key.toList, [], ['>', '='], [], digits.toList, []⟩, ?_, nofun, .name hname, nofun, .ge, nofun, h, nofun⟩
  simp [Expr.Layout.chars]

theorem ofEntry_string {digits : String} (hname : IsName key.toList) (h : IsInteger digits.toList n.toInt) :
    ofEntry (.string (key ++ ">=" ++ digits)) = .expr ⟨.name key, .ge, n⟩ := by
  rw [ofEntry, ofExpr, parse_atLeast hname h]

theorem isAtLeast_ofEntry (hkey : IsStatKey key) (h : SpellsAtLeast key n v) : IsAtLeast key n (ofEntry v) := by
  cases h with
  | number =>
    rw [ofEntry_singleton hkey, ofClause_number hkey]
    exact .compare
  | text h =>
    rw [ofEntry_singleton hkey, ofClause_text hkey h]
    exact .compare
  | shorthand h =>
    rw [ofEntry_singleton hkey, ofClause_shorthand hkey h]
    exact .compare
  | operator =>
    rw [ofEntry_singleton hkey, ofClause_operator hkey]
    exact .compare
  | listed h =>
    rw [ofEntry_object]
    show IsAtLeast key n (.all [ofEntry (.string (key ++ ">=" ++ _))])
    rw [ofEntry_string hkey.name h]
    exact .all .expr
  | expression h =>
    rw [ofEntry_string hkey.name h]
    exact .expr

theorem ofJson_of_spellsAtLeast (hkey : IsStatKey key) (h : SpellsAtLeast key n v) : ofJson v = ofEntry v := by
  cases h with
  | number | text | shorthand | operator | listed => rfl
  | expression h =>
    have hblank := Expr.not_blank_of_reads (Expr.parse_eq_ok.mp (parse_atLeast hkey.name h))
    rw [← trim_eq_nil_iff, ← List.isEmpty_iff] at hblank
    rw [ofJson, if_neg hblank]

theorem ofRequired_of_spellsAtLeast (h : SpellsAtLeast key n v) : ofRequired v = ofEntry v := by
  cases h <;> rfl

/--
A spelling has a text, and this is read as the spelling.
-/
theorem parse?_text_of_spellsAtLeast (h : SpellsAtLeast key n v) : Json.parse? v.text = some v := by
  have hreadable : Json.Readable Json.depthLimit v := by
    cases h with
    | number => exact .object (List.forall_mem_singleton.mpr (.int64 n))
    | text | shorthand => exact .object (List.forall_mem_singleton.mpr (.string _))
    | operator =>
      exact .object (List.forall_mem_singleton.mpr (.object (List.forall_mem_singleton.mpr (.int64 n))))
    | listed =>
      exact .object (List.forall_mem_singleton.mpr (.array (List.forall_mem_singleton.mpr (.string _))))
    | expression => exact .string _
  have hmerge : v.merge = v := by
    cases h <;> rfl
  rw [Json.parse?, Json.parseFields?_text hreadable, Option.map_some, hmerge]

/--
A value that requires a stat to be at least a number, from its text to its truth. It means the same wherever a condition
can stand, and no part of it is malformed.
-/
structure MeansAtLeast (key : String) (n : Int64) (v : Json) : Prop where
  reads : Json.parse? v.text = some v
  nested : ofEntry v = ofJson v
  required : ofRequired v = ofJson v
  problems : (ofJson v).problems = []
  met : ∀ p, (ofJson v).met p = decide (n ≤ p.stat key)
  holds : ∀ (b : Bindings) p, b.get? key = none → (ofJson v).holds b p = decide (n ≤ p.stat key)

theorem meansAtLeast_of_spellsAtLeast (hkey : IsStatKey key) (h : SpellsAtLeast key n v) : MeansAtLeast key n v := by
  have hjson := ofJson_of_spellsAtLeast hkey h
  have hread := isAtLeast_ofEntry hkey h
  rw [← hjson] at hread
  exact {
    reads := parse?_text_of_spellsAtLeast h
    nested := hjson.symm
    required := (ofRequired_of_spellsAtLeast h).trans hjson.symm
    problems := hread.problems
    met := hread.holds_eq (Table.get?_empty key)
    holds := fun _ p hfree => hread.holds_eq hfree p
  }

theorem meansAtLeast_of_spellsAtLeast_minValue :
    IsStatKey "gold_2" ∧
      SpellsAtLeast "gold_2" Int64.minValue (.object [("gold_2", .string "-9223372036854775808+")]) ∧
        MeansAtLeast "gold_2" Int64.minValue (.object [("gold_2", .string "-9223372036854775808+")]) := by
  have hkey : IsStatKey "gold_2" := {
    name := by simp [IsName, IsNameLetter]
    noStatus := by decide
    unreserved := by decide
  }
  have hdigits : IsInteger "-9223372036854775808".toList Int64.minValue.toInt :=
    @IsInteger.negated "9223372036854775808".toList 9223372036854775808 (natural?_eq_some.mp (by decide))
  exact ⟨hkey, .shorthand hdigits, meansAtLeast_of_spellsAtLeast hkey (.shorthand hdigits)⟩

end Condition

end Narrative

import Narrative.Proofs.Expr.Layout

/-!
This module contains that comparison expressions can be read back from their texts. A text is written without blanks,
so its three parts have to end where the next one begins.
-/

namespace Narrative

open Text

namespace Text

theorem isNatural_natural (n : Nat) : IsNatural (natural n) n :=
  natural?_eq_some.mp (natural?_natural n)

theorem isInteger_integer (n : Int) : IsInteger (integer n) n := by
  unfold integer
  split
  · next hneg =>
    have hnegated := IsInteger.negated (isNatural_natural n.natAbs)
    rwa [Int.ofNat_natAbs_of_nonpos (Int.le_of_lt hneg), Int.neg_neg] at hnegated
  · next hneg =>
    have hplain := IsInteger.plain (isNatural_natural n.natAbs)
    rwa [Int.natAbs_of_nonneg (Int.not_lt.mp hneg)] at hplain

end Text

theorem Comparison.spells_symbol (op : Comparison) : op.Spells op.symbol.toList := by
  rw [← ofSymbol?_eq_some, String.ofList_toList]
  exact ofSymbol?_symbol op

/--
An operand that a text can state. There is no other restriction on integers than to be signed 64 bit words.
-/
def Operand.WellFormed : Operand → Prop
  | .name s => IsName s.toList
  | .literal _ => True

namespace Operand

variable {left : Operand}

theorem spells_write (h : left.WellFormed) : left.Spells left.write := by
  cases left with
  | name s => exact .name h
  | literal n => exact .literal (isInteger_integer n.toInt)

theorem wellFormed_of_spells {cs : List Char} (h : left.Spells cs) : left.WellFormed := by
  cases h with
  | name h => exact h
  | literal => trivial

end Operand

namespace Expr

/--
The layout in which expressions are written.
-/
def layout (e : Expr) : Layout where
  before := []
  operand := e.left.write
  gap := []
  symbol := e.op.symbol.toList
  space := []
  integer := Text.integer e.right.toInt
  after := []

theorem chars_layout (e : Expr) : e.layout.chars = e.text.toList := by
  simp [layout, Layout.chars, text, write]

theorem states_layout {e : Expr} (h : e.left.WellFormed) : e.layout.States e where
  before := nofun
  operand := Operand.spells_write h
  gap := nofun
  symbol := e.op.spells_symbol
  space := nofun
  integer := isInteger_integer e.right.toInt
  after := nofun

theorem wellFormed_of_parse {s : String} {e : Expr} (h : parse s = .ok e) : e.left.WellFormed := by
  obtain ⟨l, -, hstates⟩ := parse_eq_ok_iff_states.mp h
  exact Operand.wellFormed_of_spells hstates.operand

theorem parse_text_of_wellFormed {e : Expr} (h : e.left.WellFormed) : parse e.text = .ok e :=
  parse_eq_ok_iff_states.mpr ⟨e.layout, e.chars_layout, states_layout h⟩

/--
The text that is written for the expression of a text.
-/
def reprint (s : String) : Except Error String :=
  (parse s).map text

/--
Just the expressions with an operand that a text can state are read back from their own text. Every expression that
is read is one of them, and printing again what was printed changes nothing.
-/
theorem parse_text :
    (∀ e, parse e.text = .ok e ↔ e.left.WellFormed) ∧
      (∀ s e, parse s = .ok e → e.left.WellFormed ∧ parse e.text = .ok e) ∧
        ∀ s, (reprint s).bind reprint = reprint s := by
  have hread : ∀ s e, parse s = .ok e → e.left.WellFormed ∧ parse e.text = .ok e := by
    intro s e h
    have hleft := wellFormed_of_parse h
    exact ⟨hleft, parse_text_of_wellFormed hleft⟩
  refine ⟨fun e => ⟨wellFormed_of_parse, parse_text_of_wellFormed⟩, hread, ?_⟩
  intro s
  unfold reprint
  cases hparse : parse s with
  | error reason => rfl
  | ok e =>
    show (parse e.text).map text = .ok e.text
    rw [(hread s e hparse).2]
    rfl

example : (Expr.mk (.literal Int64.minValue) .le (-1)).text = "-9223372036854775808<=-1" := by
  cbv

end Expr

end Narrative

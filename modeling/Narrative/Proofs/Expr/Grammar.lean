import Narrative.Expr.Parser
import Narrative.Proofs.Text.Numeral

/-!
This module contains the grammar of comparison expressions and the proof that exactly its texts are
read. The grammar speaks of characters; the tokens stand in between, each as long as it can be.
-/

namespace Narrative

inductive Comparison.Spells : List Char → Comparison → Prop where
  | lt : Spells ['<'] .lt
  | gt : Spells ['>'] .gt
  | le : Spells ['<', '='] .le
  | ge : Spells ['>', '='] .ge
  | single : Spells ['='] .eq
  | double : Spells ['=', '='] .eq
  | ne : Spells ['!', '='] .ne

theorem Comparison.ofSymbol?_eq_some {cs : List Char} {op : Comparison} :
    ofSymbol? (String.ofList cs) = some op ↔ Spells cs op := by
  constructor
  · intro h
    generalize hs : String.ofList cs = s at h
    obtain rfl : cs = s.toList := by rw [← hs, String.toList_ofList]
    unfold ofSymbol? at h
    split at h
    all_goals cases h
    · exact .lt
    · exact .gt
    · exact .le
    · exact .ge
    · exact .single
    · exact .double
    · exact .ne
  · intro h
    cases h <;> decide

namespace Expr

open Text

/--
The spelling of a token.
-/
inductive Spells : List Char → Token → Prop where
  | name {c : Char} {cs : List Char} (hc : isNameStart c) (hcs : ∀ d ∈ cs, isNameChar d) :
      Spells (c :: cs) (.name (String.ofList (c :: cs)))
  | integer {cs : List Char} {n : Int64} (h : IsInteger cs n.toInt) : Spells cs (.integer n)
  | operator {cs : List Char} {op : Comparison} (h : op.Spells cs) : Spells cs (.operator op)

def Token.continues : Token → Char → Bool
  | .name _ => isNameChar
  | .integer _ => Char.isDigit
  | .operator _ => isOperatorChar

/--
The tokens of a text with blanks between them. No token can be made longer by what follows it.
-/
inductive Lexes : List Char → List Token → Prop where
  | nil : Lexes [] []
  | blank {c : Char} {cs : List Char} {ts : List Token} (hc : isBlank c) (h : Lexes cs ts) :
      Lexes (c :: cs) ts
  | token {front rest : List Char} {t : Token} {ts : List Token} (hfront : Spells front t)
      (hends : Stops t.continues rest) (h : Lexes rest ts) : Lexes (front ++ rest) (t :: ts)

theorem isNameStart_iff {c : Char} : isNameStart c ↔
    65 ≤ c.toNat ∧ c.toNat ≤ 90 ∨ 97 ≤ c.toNat ∧ c.toNat ≤ 122 ∨ c.toNat = 95 := by
  have halpha : c.isAlpha = (c.isUpper || c.isLower) := rfl
  have hupper : c.isUpper = decide (c.val ≥ 'A'.val ∧ c.val ≤ 'Z'.val) := rfl
  have hlower : c.isLower = (decide (c.val ≥ 'a'.val) && decide (c.val ≤ 'z'.val)) := rfl
  simp only [isNameStart, halpha, hupper, hlower, ge_iff_le, Bool.or_eq_true, Bool.and_eq_true,
    decide_eq_true_eq, UInt32.le_iff_toNat_le, beq_iff_eq, ← Char.toNat_inj, Char.reduceToNat, or_assoc]
  exact Iff.rfl

theorem isNameChar_iff {c : Char} : isNameChar c ↔ c.isDigit ∨ isNameStart c := by
  simp only [isNameChar, isNameStart, Char.isAlphanum, Bool.or_eq_true, or_assoc, or_left_comm]

theorem isOperatorChar_iff {c : Char} : isOperatorChar c ↔
    c.toNat = 33 ∨ c.toNat = 60 ∨ c.toNat = 61 ∨ c.toNat = 62 := by
  simp only [isOperatorChar, Bool.or_eq_true, beq_iff_eq, ← Char.toNat_inj, Char.reduceToNat]
  omega

theorem isBlank_of_isNameStart {c : Char} (h : isNameStart c) : isBlank c = false := by
  rw [isNameStart_iff] at h
  apply isBlank_eq_false_of_toNat <;> omega

theorem isBlank_of_isOperatorChar {c : Char} (h : isOperatorChar c) : isBlank c = false := by
  rw [isOperatorChar_iff] at h
  apply isBlank_eq_false_of_toNat <;> omega

theorem isNameStart_of_isDigit {c : Char} (h : c.isDigit) : isNameStart c = false := by
  rw [Bool.eq_false_iff, ne_eq, isNameStart_iff]
  simp only [Char.isDigit_iff_toNat, Char.reduceToNat] at h
  omega

theorem isDigit_of_isOperatorChar {c : Char} (h : isOperatorChar c) : c.isDigit = false := by
  rw [isOperatorChar_iff] at h
  simp only [Bool.eq_false_iff, ne_eq, Char.isDigit_iff_toNat, Char.reduceToNat]
  omega

theorem isNameStart_of_isOperatorChar {c : Char} (h : isOperatorChar c) :
    isNameStart c = false := by
  rw [isOperatorChar_iff] at h
  rw [Bool.eq_false_iff, ne_eq, isNameStart_iff]
  omega

theorem startsInteger_of_isOperatorChar {c : Char} {rest : List Char} (h : isOperatorChar c) :
    startsInteger c rest = false := by
  have hminus : c ≠ '-' := by rintro rfl; exact absurd h (by decide)
  simp [startsInteger, isDigit_of_isOperatorChar h, hminus]

theorem isBlank_of_startsInteger {c : Char} {rest : List Char} (h : startsInteger c rest) :
    isBlank c = false := by
  simp only [startsInteger, Bool.or_eq_true, Bool.and_eq_true, beq_iff_eq] at h
  rcases h with h | ⟨rfl, -⟩
  · exact isBlank_eq_false_of_isDigit h
  · decide

theorem isNameStart_of_startsInteger {c : Char} {rest : List Char} (h : startsInteger c rest) :
    isNameStart c = false := by
  simp only [startsInteger, Bool.or_eq_true, Bool.and_eq_true, beq_iff_eq] at h
  rcases h with h | ⟨rfl, -⟩
  · exact isNameStart_of_isDigit h
  · decide

theorem exists_cons_of_isInteger {cs : List Char} {n : Int} (h : IsInteger cs n) :
    ∃ c digits, cs = c :: digits ∧ (∀ rest, startsInteger c (digits ++ rest)) ∧
      ∀ d ∈ digits, d.isDigit := by
  cases h with
  | plain h =>
    obtain ⟨c, digits, rfl, hc⟩ := h.exists_cons
    exact ⟨c, digits, rfl, by simp [startsInteger, hc],
      fun d hd => h.2.1 d (List.mem_cons_of_mem c hd)⟩
  | negated h =>
    obtain ⟨c, digits, rfl, hc⟩ := h.exists_cons
    exact ⟨'-', c :: digits, rfl, by simp [startsInteger, hc], h.2.1⟩

/--
An operator is nothing but operator characters, at least one.
-/
theorem exists_cons_of_operator {cs : List Char} {op : Comparison} (h : op.Spells cs) :
    ∃ c more, cs = c :: more ∧ isOperatorChar c ∧ ∀ d ∈ more, isOperatorChar d := by
  cases h <;> exact ⟨_, _, rfl, by decide, by simp [isOperatorChar]⟩

theorem tokensAt_of_spells {front rest : List Char} {t : Token} (hfront : Spells front t)
    (hends : Stops t.continues rest) (position : Nat) :
    tokensAt position (front ++ rest) =
      (tokensAt (position + front.length) rest).map (t :: ·) := by
  -- The first characters of names, integers, operators and blanks differ, so one branch is open.
  cases hfront with
  | @name c cs hc hcs =>
    rw [List.cons_append, tokensAt]
    simp only [isBlank_of_isNameStart hc, hc, takeWhile_of_stops hcs hends,
      dropWhile_of_stops hcs hends, if_true, Bool.false_eq_true, if_false, List.length_cons,
      Nat.add_assoc, Nat.add_comm 1]
  | integer h =>
    have hword := int64?_eq_some.mpr (.integer h)
    obtain ⟨c, digits, rfl, hstarts, hdigits⟩ := exists_cons_of_isInteger h
    have hstarts := hstarts rest
    rw [List.cons_append, tokensAt]
    simp only [isBlank_of_startsInteger hstarts, isNameStart_of_startsInteger hstarts, hstarts,
      takeWhile_of_stops hdigits hends, dropWhile_of_stops hdigits hends, hword, if_true,
      Bool.false_eq_true, if_false, List.length_cons, Nat.add_assoc, Nat.add_comm 1]
  | operator h =>
    have hsymbol := Comparison.ofSymbol?_eq_some.mpr h
    obtain ⟨c, more, rfl, hc, hmore⟩ := exists_cons_of_operator h
    rw [List.cons_append, tokensAt]
    simp only [isBlank_of_isOperatorChar hc, isNameStart_of_isOperatorChar hc,
      startsInteger_of_isOperatorChar hc, hc, takeWhile_of_stops hmore hends,
      dropWhile_of_stops hmore hends, hsymbol, if_true, Bool.false_eq_true, if_false,
      List.length_cons, Nat.add_assoc, Nat.add_comm 1]

theorem tokensAt_of_lexes {cs : List Char} {ts : List Token} (h : Lexes cs ts) :
    ∀ position, tokensAt position cs = .ok ts := by
  induction h with
  | nil =>
    intro position
    rw [tokensAt]
  | blank hc _ ih =>
    intro position
    rw [tokensAt, if_pos hc, ih]
  | token hfront hends _ ih =>
    intro position
    rw [tokensAt_of_spells hfront hends, ih]
    rfl

theorem map_eq_ok {t : Token} {read : Except Error (List Token)} {ts : List Token}
    (h : read.map (t :: ·) = .ok ts) : ∃ rest, read = .ok rest ∧ ts = t :: rest := by
  cases read with
  | error e => cases h
  | ok rest => exact ⟨rest, rfl, (Except.ok.inj h).symm⟩

theorem isInteger_of_startsInteger {c : Char} {cs rest : List Char} {n : Int}
    (hc : startsInteger c rest) (h : IsSigned (c :: cs) n) : IsInteger (c :: cs) n := by
  cases h with
  | integer h => exact h
  | plus => exact absurd hc (by simp [startsInteger])

theorem Lexes.run {c : Char} {rest : List Char} {t : Token} {ts : List Token}
    (hspells : Spells (c :: rest.takeWhile t.continues) t)
    (h : Lexes (rest.dropWhile t.continues) ts) : Lexes (c :: rest) (t :: ts) := by
  have hrun := Lexes.token hspells (stops_dropWhile _ rest) h
  rwa [List.cons_append, List.takeWhile_append_dropWhile] at hrun

theorem lexes_of_tokensAt {position : Nat} {cs : List Char} {ts : List Token}
    (h : tokensAt position cs = .ok ts) : Lexes cs ts := by
  fun_induction tokensAt position cs generalizing ts with
  | case1 =>
    cases h
    exact .nil
  | case2 _ _ _ hblank ih => exact .blank hblank (ih h)
  | case3 _ _ _ _ hname =>
    rename_i more ih
    obtain ⟨following, hfollowing, rfl⟩ := map_eq_ok h
    exact .run (.name hname (fun _ hd => List.mem_takeWhile_imp hd)) (ih hfollowing)
  | case4 _ _ _ _ _ hstarts =>
    rename_i more n hvalue ih
    obtain ⟨following, hfollowing, rfl⟩ := map_eq_ok h
    exact .run (.integer (isInteger_of_startsInteger hstarts (int64?_eq_some.mp hvalue)))
      (ih hfollowing)
  | case6 =>
    rename_i more symbol op hsymbol ih
    obtain ⟨following, hfollowing, rfl⟩ := map_eq_ok h
    exact .run (.operator (Comparison.ofSymbol?_eq_some.mp hsymbol)) (ih hfollowing)
  | case5 => cases h
  | case7 => cases h
  | case8 => cases h

theorem tokens_eq_ok {cs : List Char} {ts : List Token} : tokens cs = .ok ts ↔ Lexes cs ts :=
  ⟨lexes_of_tokensAt, fun h => tokensAt_of_lexes h 0⟩

def operandToken : Operand → Token
  | .name s => .name s
  | .literal n => .integer n

/--
The grammar: an operand, an operator and an integer, with any blanks around and between them.
-/
inductive Reads : List Char → Expr → Prop where
  | intro {b₀ b₁ b₂ b₃ left symbol right : List Char} {e : Expr} (h₀ : Blank b₀)
      (hleft : Spells left (operandToken e.left)) (h₁ : Blank b₁)
      (hsymbol : Spells symbol (.operator e.op)) (h₂ : Blank b₂)
      (hright : Spells right (.integer e.right)) (h₃ : Blank b₃) :
      Reads (b₀ ++ (left ++ (b₁ ++ (symbol ++ (b₂ ++ (right ++ b₃)))))) e

theorem afterOperator_eq_ok {left : Operand} {op : Comparison} {ts : List Token} {e : Expr}
    (h : ofTokens.afterOperator left op ts = .ok e) : ∃ n, ts = [.integer n] ∧ e = ⟨left, op, n⟩ := by
  unfold ofTokens.afterOperator at h
  split at h
  · next n => exact ⟨n, rfl, (Except.ok.inj h).symm⟩
  · cases h
  · cases h

theorem afterOperand_eq_ok {left : Operand} {ts : List Token} {e : Expr}
    (h : ofTokens.afterOperand left ts = .ok e) :
    ∃ op n, ts = [.operator op, .integer n] ∧ e = ⟨left, op, n⟩ := by
  unfold ofTokens.afterOperand at h
  split at h
  · next op rest =>
    obtain ⟨n, rfl, he⟩ := afterOperator_eq_ok h
    exact ⟨op, n, rfl, he⟩
  · cases h

theorem ofTokens_eq_ok {ts : List Token} {e : Expr} :
    ofTokens ts = .ok e ↔ ts = [operandToken e.left, .operator e.op, .integer e.right] := by
  constructor
  · intro h
    unfold ofTokens at h
    split at h
    · cases h
    · obtain ⟨op, n, rfl, rfl⟩ := afterOperand_eq_ok h
      rfl
    · obtain ⟨op, n, rfl, rfl⟩ := afterOperand_eq_ok h
      rfl
    · cases h
  · rintro rfl
    obtain ⟨left, op, right⟩ := e
    cases left <;> rfl

theorem Lexes.blanks {front cs : List Char} {ts : List Token} (hfront : Blank front)
    (h : Lexes cs ts) : Lexes (front ++ cs) ts := by
  induction front with
  | nil => exact h
  | cons c front ih =>
    exact .blank (hfront c (by simp)) (ih (fun d hd => hfront d (List.mem_cons_of_mem c hd)))

theorem lexes_nil_iff {cs : List Char} : Lexes cs [] ↔ Blank cs := by
  constructor
  · intro h
    generalize hts : ([] : List Token) = ts at h
    induction h with
    | nil => simp [Blank]
    | blank hc _ ih => simpa [Blank, hc] using ih hts
    | token => cases hts
  · intro h
    simpa using Lexes.nil.blanks h

theorem lexes_cons_iff {cs : List Char} {t : Token} {ts : List Token} :
    Lexes cs (t :: ts) ↔ ∃ front lexeme rest, Blank front ∧ Spells lexeme t ∧
      Stops t.continues rest ∧ Lexes rest ts ∧ cs = front ++ (lexeme ++ rest) := by
  constructor
  · intro h
    generalize hall : t :: ts = all at h
    induction h with
    | nil => cases hall
    | @blank c _ _ hc _ ih =>
      obtain ⟨front, lexeme, rest, hfront, hlexeme, hends, hrest, rfl⟩ := ih hall
      exact ⟨c :: front, lexeme, rest, by simpa [Blank, hc] using hfront, hlexeme, hends, hrest, rfl⟩
    | token hlexeme hends hrest =>
      cases hall
      exact ⟨[], _, _, by simp [Blank], hlexeme, hends, hrest, rfl⟩
  · rintro ⟨front, lexeme, rest, hfront, hlexeme, hends, hrest, rfl⟩
    exact (Lexes.token hlexeme hends hrest).blanks hfront

theorem isBlank_of_continues {t : Token} {c : Char} (h : t.continues c) : isBlank c = false := by
  cases t with
  | name =>
    rcases isNameChar_iff.mp h with h | h
    · exact isBlank_eq_false_of_isDigit h
    · exact isBlank_of_isNameStart h
  | integer => exact isBlank_eq_false_of_isDigit h
  | operator => exact isBlank_of_isOperatorChar h

theorem stops_blanks {t : Token} {b rest : List Char} (hb : Blank b)
    (hrest : Stops t.continues rest) : Stops t.continues (b ++ rest) := by
  cases b with
  | nil => exact hrest
  | cons c b =>
    rw [List.cons_append, stops_cons, Bool.eq_false_iff]
    intro hc
    exact absurd (hb c (by simp)) (by simp [isBlank_of_continues hc])

theorem stops_operator {left : Operand} {op : Comparison} {symbol rest : List Char}
    (h : Spells symbol (.operator op)) : Stops (operandToken left).continues (symbol ++ rest) := by
  cases h with
  | operator h =>
    obtain ⟨c, more, rfl, hc, -⟩ := exists_cons_of_operator h
    have hdigit := isDigit_of_isOperatorChar hc
    have hname : isNameChar c = false := by
      simp [Bool.eq_false_iff, isNameChar_iff, hdigit, isNameStart_of_isOperatorChar hc]
    cases left with
    | name => simpa [operandToken, Token.continues] using hname
    | literal => simpa [operandToken, Token.continues] using hdigit

theorem stops_integer {op : Comparison} {n : Int64} {right rest : List Char}
    (h : Spells right (.integer n)) : Stops (Token.operator op).continues (right ++ rest) := by
  cases h with
  | integer h =>
    obtain ⟨c, digits, rfl, hstarts, -⟩ := exists_cons_of_isInteger h
    rw [List.cons_append, stops_cons, Bool.eq_false_iff]
    intro hc
    exact absurd (hstarts []) (by simp [startsInteger_of_isOperatorChar hc])

theorem lexes_of_reads {cs : List Char} {e : Expr} (h : Reads cs e) :
    Lexes cs [operandToken e.left, .operator e.op, .integer e.right] := by
  cases h with
  | intro h₀ hleft h₁ hsymbol h₂ hright h₃ =>
    -- From the end: whatever stands behind a token, a blank or the next token, does not continue it.
    have hends := stops_blanks (t := .integer e.right) h₃ (stops_nil _)
    rw [List.append_nil] at hends
    have hlast := Lexes.token hright hends (lexes_nil_iff.mpr h₃)
    have hmiddle := Lexes.token hsymbol (stops_blanks h₂ (stops_integer hright)) (hlast.blanks h₂)
    have hfirst := Lexes.token hleft (stops_blanks h₁ (stops_operator hsymbol)) (hmiddle.blanks h₁)
    exact hfirst.blanks h₀

theorem reads_of_lexes {cs : List Char} {e : Expr}
    (h : Lexes cs [operandToken e.left, .operator e.op, .integer e.right]) : Reads cs e := by
  obtain ⟨b₀, left, _, h₀, hleft, -, hrest, rfl⟩ := lexes_cons_iff.mp h
  obtain ⟨b₁, symbol, _, h₁, hsymbol, -, hvalue, rfl⟩ := lexes_cons_iff.mp hrest
  obtain ⟨b₂, right, b₃, h₂, hright, -, hend, rfl⟩ := lexes_cons_iff.mp hvalue
  exact .intro h₀ hleft h₁ hsymbol h₂ hright (lexes_nil_iff.mp hend)

theorem not_blank_of_reads {cs : List Char} {e : Expr} (h : Reads cs e) : ¬ Blank cs := by
  intro hblank
  have hnone := tokens_eq_ok.mpr (lexes_nil_iff.mpr hblank)
  rw [tokens_eq_ok.mpr (lexes_of_reads h)] at hnone
  cases hnone

theorem parse_eq_ok {text : String} {e : Expr} : parse text = .ok e ↔ Reads text.toList e := by
  unfold parse
  constructor
  · intro h
    cases hts : tokens text.toList with
    | error reason =>
      rw [hts] at h
      cases h
    | ok ts =>
      rw [hts] at h
      obtain rfl := ofTokens_eq_ok.mp h
      exact reads_of_lexes (tokens_eq_ok.mp hts)
  · intro h
    rw [tokens_eq_ok.mpr (lexes_of_reads h)]
    exact ofTokens_eq_ok.mpr rfl

end Expr

end Narrative

import Narrative.Proofs.Expr.Layout

/-!
This module contains the words that texts of expressions are made of, and the splitting of a text into words as long as
they can be. What has been split so far is always the front of the text, and no word reaches over its end.
-/

namespace Narrative.Expr

open Text

/--
The kinds of words. Each goes on as long as characters of one class follow.
-/
inductive WordKind where
  | name
  | integer
  | symbol
  deriving DecidableEq, Repr

def WordKind.continues : WordKind → Char → Bool
  | .name => isNameChar
  | .integer => Char.isDigit
  | .symbol => isOperatorChar

def Token.kind : Token → WordKind
  | .name _ => .name
  | .integer _ => .integer
  | .operator _ => .symbol

theorem Token.continues_kind (t : Token) : t.kind.continues = t.continues := by
  cases t <;> rfl

/--
A word of a kind: a name, an integer of any size, or operator characters, whether or not they are an operator.
-/
inductive Word : WordKind → List Char → Prop where
  | name {cs : List Char} (h : IsName cs) : Word .name cs
  | integer {cs : List Char} {n : Int} (h : IsInteger cs n) : Word .integer cs
  | symbol {cs : List Char} (hne : cs ≠ []) (h : ∀ c ∈ cs, isOperatorChar c) : Word .symbol cs

def IsWord (cs : List Char) : Prop :=
  ∃ kind, Word kind cs

section

variable {kind other : WordKind} {c : Char} {cs more front rest : List Char} {t : Token}

theorem word_of_spells (h : Spells cs t) : Word t.kind cs := by
  cases h with
  | name hc hcs => exact .name (isName_cons.mpr ⟨hc, hcs⟩)
  | integer h => exact .integer h
  | operator h =>
    obtain ⟨c, more, rfl, hc, hmore⟩ := exists_cons_of_operator h
    exact .symbol (List.cons_ne_nil c more) (List.forall_mem_cons.mpr ⟨hc, hmore⟩)

namespace Word

theorem ne_nil (h : Word kind cs) : cs ≠ [] := by
  cases h with
  | name h => exact (solid_of_isName h).1
  | integer h => exact (solid_of_isInteger h).1
  | symbol hne => exact hne

theorem isBlank_head (h : Word kind (c :: more)) : isBlank c = false := by
  cases h with
  | name h => exact isBlank_of_isNameStart (isName_cons.mp h).1
  | integer h => exact (isSolid_iff.mp ((solid_of_isInteger h).2 c List.mem_cons_self)).1
  | symbol _ h => exact isBlank_of_isOperatorChar (h c List.mem_cons_self)

theorem forall_tail (h : Word kind (c :: more)) : ∀ d ∈ more, kind.continues d := by
  cases h with
  | name h => exact (isName_cons.mp h).2
  | integer h =>
    obtain ⟨c', digits, heq, -, hdigits⟩ := exists_cons_of_isInteger h
    obtain ⟨-, rfl⟩ := List.cons.inj heq
    exact hdigits
  | symbol _ h => exact fun d hd => h d (List.mem_cons_of_mem c hd)

end Word

/--
The characters that a word may begin with.
-/
def WordKind.Begins : WordKind → Char → Prop
  | .name, c => isNameStart c
  | .integer, c => c = '-' ∨ c.isDigit
  | .symbol, c => isOperatorChar c

theorem Word.begins (h : Word kind (c :: more)) : kind.Begins c := by
  cases h with
  | name h => exact (isName_cons.mp h).1
  | integer h =>
    cases h with
    | plain h => exact .inr (h.2.1 c List.mem_cons_self)
    | negated => exact .inl rfl
  | symbol _ h => exact h c List.mem_cons_self

theorem Word.begins_or_continues (h : Word kind cs) (hc : c ∈ cs) : kind.Begins c ∨ kind.continues c := by
  cases cs with
  | nil => cases hc
  | cons d more =>
    rcases List.mem_cons.mp hc with rfl | hc
    · exact .inl h.begins
    · exact .inr (h.forall_tail c hc)

theorem WordKind.eq_symbol_iff (h : kind.Begins c ∨ kind.continues c) : kind = .symbol ↔ isOperatorChar c := by
  have hsolid (hc : isSolid c) : isOperatorChar c = false := (isSolid_iff.mp hc).2
  cases kind with
  | name =>
    rcases h with h | h
    · simp [hsolid (isSolid_of_isNameStart h)]
    · simp [hsolid (isSolid_of_isNameChar h)]
  | integer =>
    rcases h with (rfl | h) | h
    · decide
    · simp [hsolid (isSolid_of_isDigit h)]
    · simp [hsolid (isSolid_of_isDigit h)]
  | symbol => exact iff_of_true rfl (or_self_iff.mp h)

/--
A word that begins with a character of another word goes on with no other characters than that one would go on with. So
it cannot reach over the end of a word that is as long as it can be.
-/
theorem WordKind.continues_of_begins {d : Char} (hkind : kind.Begins c ∨ kind.continues c) (hother : other.Begins c)
    (hd : other.continues d) : kind.continues d := by
  have hsymbol : kind = .symbol ↔ other = .symbol :=
    (eq_symbol_iff hkind).trans (eq_symbol_iff (.inl hother)).symm
  cases kind with
  | symbol =>
    rw [hsymbol.mp rfl] at hd
    exact hd
  | name =>
    cases other with
    | name => exact hd
    | integer => exact isNameChar_iff.mpr (.inl hd)
    | symbol => cases hsymbol.mpr rfl
  | integer =>
    cases other with
    | name =>
      rcases hkind with (rfl | hdigit) | hdigit
      · cases hother
      · exact absurd hother (by simp [WordKind.Begins, isNameStart_of_isDigit hdigit])
      · exact absurd hother (by simp [WordKind.Begins, isNameStart_of_isDigit hdigit])
    | integer => exact hd
    | symbol => cases hsymbol.mpr rfl

theorem Word.forall_continues (h : Word other (c :: more)) (hkind : kind.Begins c ∨ kind.continues c) :
    ∀ d ∈ more, kind.continues d := by
  intro d hd
  exact WordKind.continues_of_begins hkind h.begins (h.forall_tail d hd)

theorem Word.append (h : Word kind front) (hmore : ∀ d ∈ more, kind.continues d) : Word kind (front ++ more) := by
  cases h with
  | name h =>
    cases front with
    | nil => cases h
    | cons c front =>
      obtain ⟨hc, hfront⟩ := isName_cons.mp h
      exact .name (isName_cons.mpr ⟨hc, List.forall_mem_append.mpr ⟨hfront, hmore⟩⟩)
  | integer h =>
    have hdigits {digits : List Char} {n : Nat} (h : IsNatural digits n) :
        IsNatural (digits ++ more) (Nat.ofDigitChars 10 (digits ++ more) 0) :=
      ⟨List.append_ne_nil_of_left_ne_nil h.1 more, List.forall_mem_append.mpr ⟨h.2.1, hmore⟩, rfl⟩
    cases h with
    | plain h => exact .integer (.plain (hdigits h))
    | negated h => exact .integer (.negated (hdigits h))
  | symbol hne h => exact .symbol (List.append_ne_nil_of_left_ne_nil hne more) (List.forall_mem_append.mpr ⟨h, hmore⟩)

/--
The front of a text that is split into tokens, before the rest of the text. No token can be made longer by what follows
it, the rest included.
-/
inductive Splits (rest : List Char) : List Char → List Token → Prop where
  | nil : Splits rest [] []
  | blank {c : Char} {cs : List Char} {ts : List Token} (hc : isBlank c) (h : Splits rest cs ts) :
      Splits rest (c :: cs) ts
  | token {word cs : List Char} {t : Token} {ts : List Token} (hword : Spells word t)
      (hends : Stops t.continues (cs ++ rest)) (h : Splits rest cs ts) : Splits rest (word ++ cs) (t :: ts)

end

section

variable {cs gap front rest word before after : List Char} {t : Token} {ts us : List Token}

namespace Splits

theorem append (h : Splits (cs ++ rest) front ts) (hcs : Splits rest cs us) :
    Splits rest (front ++ cs) (ts ++ us) := by
  induction h with
  | nil => exact hcs
  | blank hc _ ih => exact .blank hc ih
  | token hword hends _ ih =>
    rw [List.append_assoc]
    exact .token hword (by rwa [List.append_assoc]) ih

theorem blanks (hgap : Blank gap) (h : Splits rest cs ts) : Splits rest (gap ++ cs) ts := by
  induction gap with
  | nil => exact h
  | cons c gap ih =>
    obtain ⟨hc, hgap⟩ := List.forall_mem_cons.mp hgap
    exact .blank hc (ih hgap)

/--
What has been split stays split when the rest is cut off.
-/
theorem lexes (h : Splits rest cs ts) : Lexes cs ts := by
  induction h with
  | nil => exact .nil
  | blank hc _ ih => exact .blank hc ih
  | @token word cs t ts hword hends _ ih =>
    refine .token hword ?_ ih
    cases cs with
    | nil => exact stops_nil _
    | cons c cs => exact hends

/--
Where no word at the end of a front goes on into the rest, the front is split the same with the rest behind it.
-/
theorem of_lexes (h : Lexes cs ts)
    (hends : ∀ before word t, cs = before ++ word → Spells word t → Stops t.continues rest) : Splits rest cs ts := by
  induction h with
  | nil => exact .nil
  | @blank c cs ts hc _ ih =>
    refine .blank hc (ih ?_)
    rintro before word t rfl hword
    exact hends (c :: before) word t rfl hword
  | @token word cs t ts hword hstops _ ih =>
    refine .token hword ?_ (ih ?_)
    · cases cs with
      | nil => exact hends [] word t (by simp) hword
      | cons c cs => exact hstops
    · rintro before last u rfl hlast
      exact hends (word ++ before) last u (by simp) hlast

theorem tokensAt_append (h : Splits rest cs ts) (position : Nat) :
    tokensAt position (cs ++ rest) = (tokensAt (position + cs.length) rest).map (ts ++ ·) := by
  induction h generalizing position with
  | nil => cases hread : tokensAt position rest <;> simp [hread, Except.map]
  | blank hc _ ih =>
    rw [List.cons_append, tokensAt, if_pos hc, ih, List.length_cons]
    rw [Nat.add_assoc, Nat.add_comm 1]
  | @token word cs t ts hword hends _ ih =>
    rw [List.append_assoc, tokensAt_of_spells hword hends, ih, List.length_append, Nat.add_assoc]
    cases tokensAt (position + (word.length + cs.length)) rest <;> rfl

/--
No word begins before the rest of the text and reaches into it.
-/
theorem not_isWord (h : Splits rest cs ts) {start back : List Char} (hcs : cs = before ++ start) (hstart : start ≠ [])
    (hback : back ≠ []) (hrest : back <+: rest) : ¬IsWord (start ++ back) := by
  rintro ⟨kind, hword⟩
  induction h generalizing before start with
  | nil => exact hstart (List.append_eq_nil_iff.mp hcs.symm).2
  | @blank c cs ts hc _ ih =>
    cases before with
    | nil =>
      subst hcs
      rw [hword.isBlank_head] at hc
      cases hc
    | cons d before =>
      rw [List.cons_append, List.cons.injEq] at hcs
      exact ih hcs.2 hstart hword
  | @token last cs t ts hlast hends _ ih =>
    rcases List.append_eq_append_iff.mp hcs with ⟨inner, rfl, hinner⟩ | ⟨inner, rfl, rfl⟩
    · exact ih hinner hstart hword
    · cases inner with
      | nil => exact ih (List.nil_append cs).symm hstart hword
      | cons c inner =>
        -- The word begins within the token, so what it goes on with would go on with the token, too.
        obtain ⟨more, rfl⟩ := hrest
        have hcontinues := hword.forall_continues ((word_of_spells hlast).begins_or_continues (by simp))
        obtain ⟨d, following, hnext⟩ := List.exists_cons_of_ne_nil (List.append_ne_nil_of_right_ne_nil cs hback)
        rw [← List.append_assoc, hnext, List.cons_append, stops_cons] at hends
        have hd : t.continues d := by
          rw [← t.continues_kind]
          exact hcontinues d (by simp [hnext])
        rw [hd] at hends
        cases hends

end Splits

/--
A word as it stands in a text, between what comes before and after it. No longer word of the text has it as a part.
-/
structure Stands (before word after : List Char) : Prop where
  isWord : IsWord word
  whole : ∀ front back, front <:+ before → back <+: after → IsWord (front ++ (word ++ back)) → front = [] ∧ back = []

theorem Splits.stands {kind : WordKind} (h : Splits (word ++ after) before ts) (hword : Word kind word)
    (hends : Stops kind.continues after) : Stands before word after where
  isWord := ⟨kind, hword⟩
  whole := by
    rintro front back ⟨start, rfl⟩ ⟨rest, rfl⟩ hlonger
    have hfront : front = [] := by
      by_contra hfront
      have hback : word ++ back ≠ [] := List.append_ne_nil_of_left_ne_nil hword.ne_nil back
      exact h.not_isWord rfl hfront hback ⟨rest, by simp⟩ hlonger
    subst hfront
    refine ⟨rfl, ?_⟩
    obtain ⟨other, hlonger⟩ := hlonger
    cases back with
    | nil => rfl
    | cons d back =>
      obtain ⟨c, more, rfl⟩ := List.exists_cons_of_ne_nil hword.ne_nil
      have hd := hlonger.forall_continues (.inl hword.begins) d (by simp)
      rw [List.cons_append, stops_cons, hd] at hends
      cases hends

namespace Stands

theorem stops {kind : WordKind} (h : Stands before word after) (hword : Word kind word) :
    Stops kind.continues after := by
  cases after with
  | nil => exact stops_nil _
  | cons d after =>
    rw [stops_cons, Bool.eq_false_iff]
    intro hd
    have hlonger := hword.append (List.forall_mem_singleton.mpr hd)
    have hwhole := h.whole [] [d] List.nil_suffix ⟨after, rfl⟩ ⟨kind, hlonger⟩
    cases hwhole.2

theorem splits (h : Stands before word after) (hbefore : Lexes before ts) : Splits (word ++ after) before ts := by
  apply Splits.of_lexes hbefore
  rintro start last t rfl hlast
  obtain ⟨kind, hword⟩ := h.isWord
  obtain ⟨d, more, rfl⟩ := List.exists_cons_of_ne_nil hword.ne_nil
  rw [List.cons_append, stops_cons, Bool.eq_false_iff, ← t.continues_kind]
  intro hd
  -- The word would go on with the last token, so together they would be one word.
  have hmore : ∀ e ∈ d :: more, t.kind.continues e :=
    List.forall_mem_cons.mpr ⟨hd, hword.forall_continues (.inr hd)⟩
  have hjoined : IsWord (last ++ ((d :: more) ++ [])) := by
    rw [List.append_nil]
    exact ⟨t.kind, (word_of_spells hlast).append hmore⟩
  have hempty := (h.whole last [] (List.suffix_append start last) List.nil_prefix hjoined).1
  exact (word_of_spells hlast).ne_nil hempty

end Stands

end

end Narrative.Expr

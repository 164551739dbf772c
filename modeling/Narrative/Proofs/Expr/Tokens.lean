import Narrative.Proofs.Expr.Words

/-!
This module contains every outcome of splitting a text into tokens. The tokens account for all of the text but the
blanks between them, and an error tells the place where no token can be read, with nothing wrong before it.
-/

namespace Narrative

namespace Text

theorem word?_eq_none {n : Int} : word? n = none ↔ ∀ w : Int64, n ≠ w.toInt := by
  simp only [Option.eq_none_iff_forall_ne_some, ne_eq, word?_eq_some]

theorem cons_takeWhile_append (p : Char → Bool) (c : Char) (rest : List Char) :
    c :: rest.takeWhile p ++ rest.dropWhile p = c :: rest := by
  rw [List.cons_append, List.takeWhile_append_dropWhile]

end Text

namespace Expr

open Text

/--
Why no token can be read at the start of a text, which stands at the given position.
-/
inductive Stuck (position : Nat) : List Char → Error → Prop where
  | unexpectedChar {c : Char} {rest : List Char} (hblank : isBlank c = false)
      (hword : ∀ word, IsWord word → ¬word <+: c :: rest) : Stuck position (c :: rest) (.unexpectedChar c position)
  | unknownOperator {run rest : List Char} (hrun : Word .symbol run) (hends : Stops isOperatorChar rest)
      (hunlisted : ∀ op : Comparison, ¬op.Spells run) :
      Stuck position (run ++ rest) (.unknownOperator (String.ofList run))
  | integerOverflow {literal rest : List Char} {n : Int} (hliteral : IsInteger literal n)
      (hends : Stops Char.isDigit rest) (hfits : ∀ w : Int64, n ≠ w.toInt) :
      Stuck position (literal ++ rest) (.integerOverflow (String.ofList literal))

section

variable {position : Nat} {c : Char} {cs front rest : List Char} {t : Token} {ts : List Token} {e : Error}

theorem exists_isInteger (h : startsInteger c rest) : ∃ n, IsInteger (c :: rest.takeWhile Char.isDigit) n := by
  have hdigits : ∀ d ∈ rest.takeWhile Char.isDigit, d.isDigit := fun _ hd => List.mem_takeWhile_imp hd
  simp only [startsInteger, Bool.or_eq_true, Bool.and_eq_true, beq_iff_eq] at h
  rcases h with hc | ⟨rfl, hnext⟩
  · exact ⟨_, .plain ⟨List.cons_ne_nil _ _, List.forall_mem_cons.mpr ⟨hc, hdigits⟩, rfl⟩⟩
  · refine ⟨_, .negated ⟨?_, hdigits, rfl⟩⟩
    cases rest with
    | nil => cases hnext
    | cons d rest =>
      rw [List.takeWhile_cons_of_pos (by simpa using hnext)]
      exact List.cons_ne_nil _ _

theorem map_eq_error {read : Except Error (List Token)} {f : List Token → List Token} (h : read.map f = .error e) :
    read = .error e := by
  cases read with
  | error e => exact h
  | ok ts => cases h

/--
The tokens of a text cannot all be read, but those before the place of the error can.
-/
inductive Fails (position : Nat) : List Char → Error → Prop where
  | intro {front rest : List Char} {ts : List Token} {e : Error} (hfront : Splits rest front ts)
      (hrest : Stuck (position + front.length) rest e) : Fails position (front ++ rest) e

namespace Fails

theorem stuck (h : Stuck position cs e) : Fails position cs e :=
  .intro .nil h

theorem blank (hc : isBlank c) (h : Fails (position + 1) cs e) : Fails position (c :: cs) e := by
  cases h with
  | @intro front rest _ _ hfront hrest =>
    refine .intro (.blank hc hfront) ?_
    rwa [List.length_cons, Nat.add_comm front.length, ← Nat.add_assoc]

theorem token (hspells : Spells (c :: rest.takeWhile t.continues) t)
    (h : Fails (position + 1 + (rest.takeWhile t.continues).length) (rest.dropWhile t.continues) e) :
    Fails position (c :: rest) e := by
  have hends := stops_dropWhile t.continues rest
  rw [← cons_takeWhile_append t.continues c rest]
  generalize rest.dropWhile t.continues = following at h hends
  cases h with
  | @intro front rest _ _ hfront hrest =>
    rw [← List.append_assoc]
    refine .intro (.token hspells hends hfront) ?_
    rwa [List.length_append, List.length_cons, Nat.add_comm _ 1, ← Nat.add_assoc, ← Nat.add_assoc]

end Fails

theorem stuck_of_integer (hstarts : startsInteger c rest) (h : int64? (c :: rest.takeWhile Char.isDigit) = none) :
    Stuck position (c :: rest) (.integerOverflow (String.ofList (c :: rest.takeWhile Char.isDigit))) := by
  obtain ⟨n, hliteral⟩ := exists_isInteger hstarts
  rw [int64?, integer?_eq_some.mpr (.integer hliteral), Option.bind_some, word?_eq_none] at h
  rw [← cons_takeWhile_append Char.isDigit c rest]
  exact .integerOverflow hliteral (stops_dropWhile Char.isDigit rest) h

theorem stuck_of_symbol (hc : isOperatorChar c)
    (h : Comparison.ofSymbol? (String.ofList (c :: rest.takeWhile isOperatorChar)) = none) :
    Stuck position (c :: rest) (.unknownOperator (String.ofList (c :: rest.takeWhile isOperatorChar))) := by
  have hrun : Word .symbol (c :: rest.takeWhile isOperatorChar) :=
    .symbol (List.cons_ne_nil _ _) (List.forall_mem_cons.mpr ⟨hc, fun _ hd => List.mem_takeWhile_imp hd⟩)
  have hunlisted (op : Comparison) (hop : op.Spells (c :: rest.takeWhile isOperatorChar)) : False := by
    rw [Comparison.ofSymbol?_eq_some.mpr hop] at h
    cases h
  rw [← cons_takeWhile_append isOperatorChar c rest]
  exact .unknownOperator hrun (stops_dropWhile isOperatorChar rest) hunlisted

/--
Whether a text starts with a word is told by its first character, and for an integer by the next one, too.
-/
theorem exists_isWord_iff : (∃ word, IsWord word ∧ word <+: c :: rest) ↔
    isNameStart c ∨ startsInteger c rest ∨ isOperatorChar c := by
  constructor
  · rintro ⟨word, ⟨kind, hword⟩, following, hrest⟩
    cases hword with
    | name hname =>
      cases word with
      | nil => cases hname
      | cons d more =>
        obtain ⟨rfl, -⟩ := List.cons.inj hrest
        exact .inl (isName_cons.mp hname).1
    | integer hinteger =>
      obtain ⟨d, digits, rfl, hstarts, -⟩ := exists_cons_of_isInteger hinteger
      obtain ⟨rfl, rfl⟩ := List.cons.inj hrest
      exact .inr (.inl (hstarts following))
    | symbol hne hsymbol =>
      obtain ⟨d, more, rfl⟩ := List.exists_cons_of_ne_nil hne
      obtain ⟨rfl, -⟩ := List.cons.inj hrest
      exact .inr (.inr (hsymbol d List.mem_cons_self))
  · rintro (hname | hstarts | hc)
    · exact ⟨[c], ⟨.name, .name (isName_cons.mpr ⟨hname, nofun⟩)⟩, rest, rfl⟩
    · obtain ⟨n, hinteger⟩ := exists_isInteger hstarts
      exact ⟨_, ⟨.integer, .integer hinteger⟩, rest.dropWhile Char.isDigit, cons_takeWhile_append Char.isDigit c rest⟩
    · exact ⟨[c], ⟨.symbol, .symbol (List.cons_ne_nil _ _) (List.forall_mem_singleton.mpr hc)⟩, rest, rfl⟩

theorem no_isWord_iff : (∀ word, IsWord word → ¬word <+: c :: rest) ↔
    isNameStart c = false ∧ startsInteger c rest = false ∧ isOperatorChar c = false := by
  have hnot : (¬∃ word, IsWord word ∧ word <+: c :: rest) ↔ _ := not_congr exists_isWord_iff
  simpa only [not_exists, not_and, not_or, Bool.not_eq_true] using hnot

theorem tokensAt_of_stuck (h : Stuck position cs e) : tokensAt position cs = .error e := by
  cases h with
  | @unexpectedChar c rest hblank hword =>
    obtain ⟨hname, hstarts, hc⟩ := no_isWord_iff.mp hword
    rw [tokensAt]
    simp only [hblank, hname, hstarts, hc, Bool.false_eq_true, if_false]
  | @unknownOperator run rest hrun hends hunlisted =>
    obtain ⟨c, more, rfl⟩ := List.exists_cons_of_ne_nil hrun.ne_nil
    have hc : isOperatorChar c := hrun.begins
    have hmore : ∀ d ∈ more, isOperatorChar d := hrun.forall_tail
    have hsymbol : Comparison.ofSymbol? (String.ofList (c :: more)) = none := by
      rw [Option.eq_none_iff_forall_ne_some]
      intro op hop
      exact hunlisted op (Comparison.ofSymbol?_eq_some.mp hop)
    rw [List.cons_append, tokensAt]
    simp only [isBlank_of_isOperatorChar hc, isNameStart_of_isOperatorChar hc, startsInteger_of_isOperatorChar hc, hc,
      takeWhile_of_stops hmore hends, hsymbol, Bool.false_eq_true, if_false, if_true]
  | @integerOverflow literal rest n hliteral hends hfits =>
    have hvalue : int64? literal = none := by
      rw [int64?, integer?_eq_some.mpr (.integer hliteral), Option.bind_some, word?_eq_none]
      exact hfits
    obtain ⟨c, digits, rfl, hstarts, hdigits⟩ := exists_cons_of_isInteger hliteral
    have hstarts := hstarts rest
    rw [List.cons_append, tokensAt]
    simp only [isBlank_of_startsInteger hstarts, isNameStart_of_startsInteger hstarts, hstarts,
      takeWhile_of_stops hdigits hends, hvalue, Bool.false_eq_true, if_false, if_true]

theorem fails_of_tokensAt (h : tokensAt position cs = .error e) : Fails position cs e := by
  fun_induction tokensAt position cs generalizing e with
  | case1 => cases h
  | case2 _ _ _ hblank ih => exact .blank hblank (ih h)
  | case3 _ _ _ _ hname =>
    rename_i more ih
    exact .token (t := .name _) (.name hname (fun _ hd => List.mem_takeWhile_imp hd)) (ih (map_eq_error h))
  | case4 _ _ _ _ _ hstarts =>
    rename_i more n hvalue ih
    have hinteger := isInteger_of_startsInteger hstarts (int64?_eq_some.mp hvalue)
    exact .token (t := .integer n) (.integer hinteger) (ih (map_eq_error h))
  | case5 _ _ _ _ _ hstarts =>
    rename_i more hvalue
    cases h
    exact .stuck (stuck_of_integer hstarts hvalue)
  | case6 =>
    rename_i more symbol op hsymbol ih
    exact .token (t := .operator op) (.operator (Comparison.ofSymbol?_eq_some.mp hsymbol)) (ih (map_eq_error h))
  | case7 _ _ _ _ _ _ hc =>
    rename_i more symbol hsymbol
    cases h
    exact .stuck (stuck_of_symbol hc hsymbol)
  | case8 _ c rest hblank hname hstarts hc =>
    cases h
    refine .stuck (.unexpectedChar (by simpa using hblank) ?_)
    exact no_isWord_iff.mpr (by simp [hname, hstarts, hc])

theorem tokensAt_eq_error : tokensAt position cs = .error e ↔ Fails position cs e := by
  constructor
  · exact fails_of_tokensAt
  · rintro ⟨hfront, hrest⟩
    rw [hfront.tokensAt_append, tokensAt_of_stuck hrest]
    rfl

end

/--
A token with the word that spells it, and with the gap in front of it.
-/
structure Piece where
  gap : List Char
  word : List Char
  token : Token

/--
The text of pieces, one behind the other.
-/
def written (pieces : List Piece) : List Char :=
  pieces.flatMap (fun piece => piece.gap ++ piece.word)

/--
A text is divided into the words of its tokens and the blanks around them. Each token is what its word spells, and no
word is part of a longer one. If there is more in front of the text, this counts, too.
-/
structure Divides (front : List Char) (pieces : List Piece) (back cs : List Char) (ts : List Token) : Prop where
  chars : written pieces ++ back = cs
  tokens : pieces.map Piece.token = ts
  gaps : ∀ piece ∈ pieces, Blank piece.gap
  blank : Blank back
  spells : ∀ piece ∈ pieces, Spells piece.word piece.token
  stands : ∀ before piece after, pieces = before ++ piece :: after →
    Stands (front ++ (written before ++ piece.gap)) piece.word (written after ++ back)

section

variable {cs front back rest : List Char} {ts us : List Token} {piece : Piece} {pieces : List Piece} {e : Error}

theorem written_cons (piece : Piece) (pieces : List Piece) :
    written (piece :: pieces) = piece.gap ++ (piece.word ++ written pieces) := by
  rw [written, List.flatMap_cons, List.append_assoc]
  rfl

namespace Divides

theorem tail (h : Divides front (piece :: pieces) back cs ts) :
    Divides (front ++ (piece.gap ++ piece.word)) pieces back (written pieces ++ back) (pieces.map Piece.token) where
  chars := rfl
  tokens := rfl
  gaps := (List.forall_mem_cons.mp h.gaps).2
  blank := h.blank
  spells := (List.forall_mem_cons.mp h.spells).2
  stands := by
    rintro before other after rfl
    have hstands := h.stands (piece :: before) other after rfl
    simpa only [written_cons, List.append_assoc] using hstands

theorem cons (h : Divides (front ++ (piece.gap ++ piece.word)) pieces back rest ts) (hgap : Blank piece.gap)
    (hspells : Spells piece.word piece.token) (hstands : Stands (front ++ piece.gap) piece.word rest) :
    Divides front (piece :: pieces) back (piece.gap ++ (piece.word ++ rest)) (piece.token :: ts) where
  chars := by rw [written_cons, List.append_assoc, List.append_assoc, h.chars]
  tokens := by rw [List.map_cons, h.tokens]
  gaps := List.forall_mem_cons.mpr ⟨hgap, h.gaps⟩
  blank := h.blank
  spells := List.forall_mem_cons.mpr ⟨hspells, h.spells⟩
  stands := by
    intro before other after hpieces
    cases before with
    | nil =>
      obtain ⟨rfl, rfl⟩ := List.cons.inj hpieces
      rw [h.chars]
      exact hstands
    | cons first before =>
      obtain ⟨rfl, rfl⟩ := List.cons.inj hpieces
      have hlater := h.stands before other after rfl
      simpa only [written_cons, List.append_assoc] using hlater

end Divides

theorem lexes_of_divides (h : Divides front pieces back cs ts) : Lexes cs ts := by
  induction pieces generalizing front cs ts with
  | nil =>
    obtain rfl := h.chars
    obtain rfl := h.tokens
    exact lexes_nil_iff.mpr h.blank
  | cons piece pieces ih =>
    obtain rfl := h.chars
    obtain rfl := h.tokens
    have hspells := h.spells piece List.mem_cons_self
    have hends := (h.stands [] piece pieces rfl).stops (word_of_spells hspells)
    rw [piece.token.continues_kind] at hends
    rw [written_cons, List.append_assoc, List.append_assoc]
    exact lexes_cons_iff.mpr ⟨_, _, _, h.gaps piece List.mem_cons_self, hspells, hends, ih h.tail, rfl⟩

/--
The rest of a text is divided behind a front that has been split.
-/
theorem exists_divides (hfront : Splits cs front us) (h : Lexes cs ts) :
    ∃ pieces back, Divides front pieces back cs ts := by
  induction ts generalizing front us cs with
  | nil => exact ⟨[], cs, rfl, rfl, nofun, lexes_nil_iff.mp h, nofun, by simp⟩
  | cons t ts ih =>
    obtain ⟨gap, word, rest, hgap, hspells, hends, hrest, rfl⟩ := lexes_cons_iff.mp h
    have hgap' : Splits (word ++ rest) gap [] := by
      simpa using Splits.nil.blanks hgap
    have hgaps : Splits (word ++ rest) (front ++ gap) us := by
      simpa using hfront.append hgap'
    have hone : Splits rest word [t] := by
      simpa using Splits.token hspells (by simpa using hends) .nil
    have hword : Splits rest (front ++ (gap ++ word)) (us ++ [t]) := by
      rw [← List.append_assoc]
      exact hgaps.append hone
    have hstands := hgaps.stands (word_of_spells hspells) (by rwa [t.continues_kind])
    obtain ⟨pieces, back, hdivides⟩ := ih hword hrest
    exact ⟨⟨gap, word, t⟩ :: pieces, back, hdivides.cons hgap hspells hstands⟩

theorem tokens_eq_ok_iff : tokens cs = .ok ts ↔ ∃ pieces back, Divides [] pieces back cs ts := by
  rw [tokens_eq_ok]
  constructor
  · exact exists_divides .nil
  · rintro ⟨pieces, back, h⟩
    exact lexes_of_divides h

/--
No token can be read at position `i` of a text, where character `c` stands, but all those before it can.
-/
structure StopsAt (cs : List Char) (c : Char) (i : Nat) : Prop where
  char : cs[i]? = some c
  front : ∃ ts, tokens (cs.take i) = .ok ts
  blank : isBlank c = false
  word : ∀ word, IsWord word → ¬word <+: cs.drop i

theorem tokens_eq_unexpectedChar {c : Char} {i : Nat} :
    tokens cs = .error (.unexpectedChar c i) ↔ StopsAt cs c i := by
  rw [tokens, tokensAt_eq_error]
  constructor
  · rintro ⟨hfront, hrest⟩
    cases hrest with
    | unexpectedChar hblank hword =>
      rw [Nat.zero_add]
      exact ⟨by simp, ⟨_, by rw [List.take_left]; exact tokens_eq_ok.mpr hfront.lexes⟩, hblank, by rwa [List.drop_left]⟩
  · rintro ⟨hc, ⟨ts, hts⟩, hblank, hword⟩
    obtain ⟨hi, rfl⟩ := List.getElem?_eq_some_iff.mp hc
    rw [List.drop_eq_getElem_cons hi] at hword
    obtain ⟨hname, hstarts, hoperator⟩ := no_isWord_iff.mp hword
    obtain ⟨hdigit, -⟩ := Bool.or_eq_false_iff.mp hstarts
    -- The last token before the place would only go on with a character that a token can begin with.
    have hfront : Splits (cs[i] :: cs.drop (i + 1)) (cs.take i) ts := by
      apply Splits.of_lexes (tokens_eq_ok.mp hts)
      intro _ _ t _ _
      rw [stops_cons]
      cases t with
      | name => rw [Token.continues, Bool.eq_false_iff, ne_eq, isNameChar_iff, hdigit, hname]; simp
      | integer => exact hdigit
      | operator => exact hoperator
    have hfails : Fails 0 (cs.take i ++ cs[i] :: cs.drop (i + 1)) (.unexpectedChar cs[i] i) := by
      refine .intro hfront ?_
      rw [List.length_take_of_le hi.le, Nat.zero_add]
      exact .unexpectedChar hblank hword
    rwa [← List.drop_eq_getElem_cons hi, List.take_append_drop] at hfails

/--
All tokens before some word of a text can be read.
-/
def ReadsUpTo (cs word : List Char) : Prop :=
  ∃ before after, cs = before ++ (word ++ after) ∧ (∃ ts, tokens before = .ok ts) ∧ Stands before word after

theorem readsUpTo_iff {kind : WordKind} {word : List Char} (hword : Word kind word) :
    ReadsUpTo cs word ↔
      ∃ before after ts, cs = before ++ (word ++ after) ∧ Splits (word ++ after) before ts ∧
        Stops kind.continues after := by
  constructor
  · rintro ⟨before, after, rfl, ⟨ts, hts⟩, hstands⟩
    exact ⟨before, after, ts, rfl, hstands.splits (tokens_eq_ok.mp hts), hstands.stops hword⟩
  · rintro ⟨before, after, ts, rfl, hbefore, hends⟩
    exact ⟨before, after, rfl, ⟨ts, tokens_eq_ok.mpr hbefore.lexes⟩, hbefore.stands hword hends⟩

theorem tokens_eq_unknownOperator {symbol : String} :
    tokens cs = .error (.unknownOperator symbol) ↔
      Word .symbol symbol.toList ∧ ReadsUpTo cs symbol.toList ∧ ∀ op : Comparison, ¬op.Spells symbol.toList := by
  rw [tokens, tokensAt_eq_error]
  constructor
  · rintro ⟨hfront, hrest⟩
    cases hrest with
    | unknownOperator hrun hends hunlisted =>
      rw [String.toList_ofList]
      exact ⟨hrun, (readsUpTo_iff hrun).mpr ⟨_, _, _, rfl, hfront, hends⟩, hunlisted⟩
  · rintro ⟨hrun, hreads, hunlisted⟩
    obtain ⟨before, after, ts, rfl, hbefore, hends⟩ := (readsUpTo_iff hrun).mp hreads
    have hstuck : Stuck (0 + before.length) (symbol.toList ++ after)
        (.unknownOperator (String.ofList symbol.toList)) :=
      .unknownOperator hrun hends hunlisted
    rw [String.ofList_toList] at hstuck
    exact .intro hbefore hstuck

theorem tokens_eq_integerOverflow {literal : String} :
    tokens cs = .error (.integerOverflow literal) ↔
      ∃ n, IsInteger literal.toList n ∧ ReadsUpTo cs literal.toList ∧ ∀ w : Int64, n ≠ w.toInt := by
  rw [tokens, tokensAt_eq_error]
  constructor
  · rintro ⟨hfront, hrest⟩
    cases hrest with
    | integerOverflow hliteral hends hfits =>
      rw [String.toList_ofList]
      exact ⟨_, hliteral, (readsUpTo_iff (.integer hliteral)).mpr ⟨_, _, _, rfl, hfront, hends⟩, hfits⟩
  · rintro ⟨n, hliteral, hreads, hfits⟩
    obtain ⟨before, after, ts, rfl, hbefore, hends⟩ := (readsUpTo_iff (.integer hliteral)).mp hreads
    have hstuck : Stuck (0 + before.length) (literal.toList ++ after)
        (.integerOverflow (String.ofList literal.toList)) :=
      .integerOverflow hliteral hends hfits
    rw [String.ofList_toList] at hstuck
    exact .intro hbefore hstuck

theorem error_of_tokens (h : tokens cs = .error e) :
    (∃ c i, e = .unexpectedChar c i) ∨ (∃ symbol, e = .unknownOperator symbol) ∨
      ∃ literal, e = .integerOverflow literal := by
  cases tokensAt_eq_error.mp h with
  | intro _ hrest =>
    cases hrest with
    | unexpectedChar => exact .inl ⟨_, _, rfl⟩
    | unknownOperator => exact .inr (.inl ⟨_, rfl⟩)
    | integerOverflow => exact .inr (.inr ⟨_, rfl⟩)

end

/--
The outcome of reading the tokens of a text accounts for the text. If all tokens are read, the text is their words and
blanks. Otherwise the error tells how far the tokens go, and what stands there instead of a token.
-/
structure Accounts (text : String) : Prop where
  ok_iff : ∀ ts, tokens text.toList = .ok ts ↔ ∃ pieces back, Divides [] pieces back text.toList ts
  unexpectedChar_iff : ∀ c i, tokens text.toList = .error (.unexpectedChar c i) ↔ StopsAt text.toList c i
  unknownOperator_iff : ∀ symbol, tokens text.toList = .error (.unknownOperator symbol) ↔
    Word .symbol symbol.toList ∧ ReadsUpTo text.toList symbol.toList ∧ ∀ op : Comparison, ¬op.Spells symbol.toList
  integerOverflow_iff : ∀ literal, tokens text.toList = .error (.integerOverflow literal) ↔
    ∃ n, IsInteger literal.toList n ∧ ReadsUpTo text.toList literal.toList ∧ ∀ w : Int64, n ≠ w.toInt
  error : ∀ e, tokens text.toList = .error e → (∃ c i, e = .unexpectedChar c i) ∨
    (∃ symbol, e = .unknownOperator symbol) ∨ ∃ literal, e = .integerOverflow literal

theorem accounts (text : String) : Accounts text where
  ok_iff _ := tokens_eq_ok_iff
  unexpectedChar_iff _ _ := tokens_eq_unexpectedChar
  unknownOperator_iff _ := tokens_eq_unknownOperator
  integerOverflow_iff _ := tokens_eq_integerOverflow
  error _ := error_of_tokens

end Expr

end Narrative

import Narrative.Json.Parser
import Narrative.Json.Printer
import Narrative.Proofs.Text.Numeral

/-!
This module contains that a JSON value is read back from its text: first each token of the text, whatever follows it,
then the value from its tokens. Doubles are left out, as their text is not exact.
-/

namespace Narrative.Json

open Text (Stops stops_nil stops_cons natural integer)

variable {cs rest : List Char}

/--
Whether a number goes on with a character.
-/
def continuesNumber (c : Char) : Bool :=
  c.isDigit || c == '.' || c == 'e' || c == 'E'

theorem exists_cons_natural (n : Nat) : ∃ c digits, natural n = c :: digits ∧ c.isDigit :=
  (Text.natural?_eq_some.mp (Text.natural?_natural n)).exists_cons

theorem head?_natural {n : Nat} (h : 0 < n) : (natural n).head? ≠ some '0' := by
  have hdigit : ∀ d < 10, 0 < d → some (Nat.digitChar d) ≠ some '0' := by decide
  induction n using Nat.strongRecOn with
  | ind n ih =>
    unfold natural
    rw [Nat.toDigits_eq_if (by decide)]
    split
    · next hlt => exact hdigit n hlt h
    · next hle =>
      have hhead := ih (n / 10) (by omega) (by omega)
      obtain ⟨c, digits, heq, -⟩ := exists_cons_natural (n / 10)
      unfold natural at heq hhead
      rw [heq] at hhead ⊢
      exact hhead

theorem spanDigits_natural (n : Nat) (h : Stops Char.isDigit rest) :
    spanDigits (natural n ++ rest) = (natural n, rest) := by
  have hdigits : ∀ c ∈ natural n, c.isDigit := fun _ => Text.isDigit_of_mem_natural
  unfold spanDigits
  rw [Text.takeWhile_of_stops hdigits h, Text.dropWhile_of_stops hdigits h]

/--
The digits of a number do not begin with a zero, unless they are one zero.
-/
theorem whole?_natural (n : Nat) (h : Stops Char.isDigit rest) :
    whole? (natural n ++ rest) = some (natural n, rest) := by
  unfold whole?
  rw [spanDigits_natural n h]
  split
  · next heq =>
    obtain ⟨hnil, -⟩ := Prod.mk.inj heq
    exact absurd hnil Nat.toDigits_ne_nil
  · next heq =>
    obtain ⟨hzero, -⟩ := Prod.mk.inj heq
    rcases Nat.eq_zero_or_pos n with rfl | hpos
    · simp [natural] at hzero
    · exact absurd (by rw [hzero]; rfl) (head?_natural hpos)
  · rfl

theorem fraction?_of_stops (h : Stops continuesNumber cs) : fraction? cs = some (none, cs) := by
  unfold fraction?
  split
  · cases stops_cons.mp h
  · rfl

theorem exponent?_of_stops (h : Stops continuesNumber cs) : exponent? cs = some (none, cs) := by
  unfold exponent?
  split
  · rfl
  · next c rest =>
    rw [stops_cons] at h
    unfold continuesNumber at h
    rw [Bool.or_eq_false_iff, Bool.or_eq_false_iff, Bool.or_eq_false_iff] at h
    rw [h.1.2, h.2]
    rfl

theorem stops_isDigit (h : Stops continuesNumber cs) : Stops Char.isDigit cs := by
  intro c hc
  have hstop := h c hc
  unfold continuesNumber at hstop
  rw [Bool.or_eq_false_iff, Bool.or_eq_false_iff, Bool.or_eq_false_iff] at hstop
  exact hstop.1.1.1

theorem literal?_integer (n : Int) (h : Stops continuesNumber rest) :
    literal? (integer n ++ rest) = some (⟨decide (n < 0), natural n.natAbs, none, none⟩, rest) := by
  have hwhole := whole?_natural n.natAbs (stops_isDigit h)
  unfold literal? integer
  by_cases hneg : n < 0
  · rw [if_pos hneg, List.cons_append]
    simp [hneg, hwhole, fraction?_of_stops h, exponent?_of_stops h]
  · rw [if_neg hneg]
    obtain ⟨c, digits, heq, hc⟩ := exists_cons_natural n.natAbs
    have hminus : c ≠ '-' := by
      rintro rfl
      exact absurd hc (by decide)
    rw [heq] at hwhole ⊢
    rw [List.cons_append] at hwhole ⊢
    simp [hneg, hminus, hwhole, fraction?_of_stops h, exponent?_of_stops h]

theorem number?_natAbs {n : Int} (hlo : -(Nat.pow 2 63 : Int) ≤ n) (hhi : n < (Nat.pow 2 64 : Int)) :
    (Literal.mk (decide (n < 0)) (natural n.natAbs) none none).number? = some (.int n) := by
  unfold Literal.number? natural
  dsimp only
  rw [Nat.ofDigitChars_ten_toDigits]
  by_cases hneg : n < 0
  · have hpos : 0 < n.natAbs := by omega
    have hle : n.natAbs ≤ Nat.pow 2 63 := by omega
    have hcast : -(n.natAbs : Int) = n := by omega
    simp only [hneg, hpos, hle, decide_true, Bool.and_self, if_true, hcast]
  · have hlt : n.natAbs < Nat.pow 2 64 := by omega
    have hcast : (n.natAbs : Int) = n := by omega
    simp [hneg, hlt, hcast]

theorem hexDigit?_hexChar {n : Nat} (h : n < 16) : hexDigit? (hexChar n) = some n := by
  have hall : ∀ n < 16, hexDigit? (hexChar n) = some n := by decide
  exact hall n h

/--
A control character is the escape of its two hexadecimal digits.
-/
theorem unicodeEscape?_hexChar {c : Char} (h : c < ' ') :
    unicodeEscape? ('0' :: '0' :: hexChar (c.toNat / 16) :: hexChar (c.toNat % 16) :: rest) = some (c, rest) := by
  have hlt : c.toNat < 32 := h
  have hunit : hexUnit? ('0' :: '0' :: hexChar (c.toNat / 16) :: hexChar (c.toNat % 16) :: rest) =
      some (c.toNat, rest) := by
    have hzero : hexDigit? '0' = some 0 := by decide
    have hvalue : ((0 * 16 + 0) * 16 + c.toNat / 16) * 16 + c.toNat % 16 = c.toNat := by omega
    unfold hexUnit?
    simp only [hzero, hexDigit?_hexChar (show c.toNat / 16 < 16 by omega),
      hexDigit?_hexChar (show c.toNat % 16 < 16 by omega), Option.bind_eq_bind, Option.bind_some, Option.pure_def,
      hvalue]
  have hhigh : ¬0xD800 ≤ c.toNat := by omega
  have hlow : ¬0xDC00 ≤ c.toNat := by omega
  unfold unicodeEscape?
  rw [hunit]
  simp [hhigh, hlow, Char.ofNat_toNat]

theorem stringBody?_escape {d : Char} (h : escape? cs = some (d, rest)) :
    stringBody? ('\\' :: cs) = (stringBody? rest).map (fun (body, rest) => (d :: body, rest)) := by
  rw [stringBody?]
  simp only [Char.reduceEq, if_false, if_true]
  split
  · next hnone =>
    rw [h] at hnone
    cases hnone
  · next heq =>
    rw [h] at heq
    cases heq
    rfl

theorem stringBody?_writeChar (c : Char) (rest : List Char) :
    stringBody? (writeChar c ++ rest) = (stringBody? rest).map (fun (body, rest) => (c :: body, rest)) := by
  unfold writeChar
  split
  · exact stringBody?_escape rfl
  · exact stringBody?_escape rfl
  · exact stringBody?_escape rfl
  · exact stringBody?_escape rfl
  · exact stringBody?_escape rfl
  · exact stringBody?_escape rfl
  · exact stringBody?_escape rfl
  · next hquote hslash _ _ _ _ _ =>
    split
    · next hcontrol =>
      exact stringBody?_escape (unicodeEscape?_hexChar hcontrol)
    · next hplain =>
      rw [List.cons_append, List.nil_append, stringBody?, if_neg hquote, if_neg hslash, if_neg hplain]

theorem stringBody?_flatMap (cs rest : List Char) :
    stringBody? (cs.flatMap writeChar ++ '"' :: rest) = some (cs, rest) := by
  induction cs with
  | nil =>
    rw [List.flatMap_nil, List.nil_append, stringBody?]
    simp
  | cons c cs ih =>
    rw [List.flatMap_cons, List.append_assoc, stringBody?_writeChar, ih]
    rfl

theorem token?_writeString (s : String) (rest : List Char) :
    token? (writeString s ++ rest) = some (.string s, rest) := by
  unfold writeString
  rw [List.append_assoc]
  show (stringBody? (s.toList.flatMap writeChar ++ '"' :: rest)).map _ = _
  rw [stringBody?_flatMap, Option.map_some]
  dsimp only
  rw [String.ofList_toList]

theorem exists_cons_integer (n : Int) : ∃ c more, integer n = c :: more ∧ (c = '-' ∨ c.isDigit) := by
  unfold integer
  split
  · exact ⟨'-', _, rfl, .inl rfl⟩
  · obtain ⟨c, digits, heq, hc⟩ := exists_cons_natural n.natAbs
    exact ⟨c, digits, heq, .inr hc⟩

theorem isSpace_eq_false_of_isDigit {c : Char} (h : c.isDigit) : isSpace c = false := by
  unfold isSpace
  simp only [Bool.or_eq_false_iff, beq_eq_false_iff_ne]
  refine ⟨⟨⟨?_, ?_⟩, ?_⟩, ?_⟩ <;>
    · rintro rfl
      exact absurd h (by decide)

theorem token?_of_literal? {c : Char} {literal : Literal} {n : Number} (hc : c = '-' ∨ c.isDigit)
    (h : literal? (c :: cs) = some (literal, rest)) (hn : literal.number? = some n) :
    token? (c :: cs) = some (.number n, rest) := by
  unfold token?
  dsimp only
  split
  case h_11 =>
    rw [h]
    dsimp only
    rw [hn]
    rfl
  all_goals exact absurd hc (by decide)

theorem token?_integer {n : Int} (hlo : -(Nat.pow 2 63 : Int) ≤ n) (hhi : n < (Nat.pow 2 64 : Int))
    (h : Stops continuesNumber rest) : token? (integer n ++ rest) = some (.number (.int n), rest) := by
  have hliteral := literal?_integer n h
  obtain ⟨c, more, heq, hc⟩ := exists_cons_integer n
  rw [heq] at hliteral ⊢
  exact token?_of_literal? hc hliteral (number?_natAbs hlo hhi)

/--
The text is recognised as the tokens, in front of whatever no number goes on with.
-/
def LexesAs (cs : List Char) (ts : List Token) : Prop :=
  ∀ rest, Stops continuesNumber rest → tokens? (cs ++ rest) = (tokens? rest).map (ts ++ ·)

theorem tokens?_of_token? {t : Token} (hspace : Stops isSpace cs) (h : token? cs = some (t, rest)) :
    tokens? cs = (tokens? rest).map (t :: ·) := by
  have hdrop : ([] ++ cs).dropWhile isSpace = cs := Text.dropWhile_of_stops nofun hspace
  rw [List.nil_append] at hdrop
  rw [tokens?]
  split
  · next hnil =>
    rw [← hdrop, hnil] at h
    cases h
  · next heq =>
    rw [hdrop] at heq
    rw [← heq]
    split
    · next hnone =>
      rw [h] at hnone
      cases hnone
    · next hsome =>
      rw [h] at hsome
      cases hsome
      rfl

namespace LexesAs

variable {ts us : List Token}

theorem nil : LexesAs [] [] := by
  intro rest _
  simp

theorem append {ds : List Char} (h : LexesAs cs ts) (hrest : LexesAs ds us)
    (hstops : ∀ rest, Stops continuesNumber (ds ++ rest)) : LexesAs (cs ++ ds) (ts ++ us) := by
  intro rest hstop
  rw [List.append_assoc, h _ (hstops rest), hrest rest hstop, Option.map_map]
  congr 1
  funext vs
  exact (List.append_assoc ts us vs).symm

theorem cons {c : Char} {t : Token} (hspace : isSpace c = false) (htoken : ∀ more, token? (c :: more) = some (t, more))
    (h : LexesAs cs ts) : LexesAs (c :: cs) (t :: ts) := by
  intro rest hstop
  rw [List.cons_append, tokens?_of_token? (stops_cons.mpr hspace) (htoken _), h rest hstop, Option.map_map]
  rfl

theorem writeString (s : String) (h : LexesAs cs ts) : LexesAs (writeString s ++ cs) (.string s :: ts) := by
  intro rest hstop
  rw [List.append_assoc, tokens?_of_token? _ (token?_writeString s _), h rest hstop, Option.map_map]
  · rfl
  · exact stops_cons.mpr rfl

theorem integer {n : Int} (hlo : -(Nat.pow 2 63 : Int) ≤ n) (hhi : n < (Nat.pow 2 64 : Int)) :
    LexesAs (integer n) [.number (.int n)] := by
  intro rest hstop
  rw [tokens?_of_token? _ (token?_integer hlo hhi hstop)]
  · rfl
  · obtain ⟨c, digits, heq, hc⟩ := exists_cons_integer n
    rw [heq, List.cons_append, stops_cons]
    rcases hc with rfl | hc
    · rfl
    · exact isSpace_eq_false_of_isDigit hc

theorem field {value : Json} (name : String) (hvalue : LexesAs value.write us) (hrest : LexesAs cs ts)
    (hstops : ∀ rest, Stops continuesNumber (cs ++ rest)) :
    LexesAs (Json.writeString name ++ ':' :: (value.write ++ cs)) (.string name :: .colon :: (us ++ ts)) :=
  .writeString name (.cons rfl (fun _ => rfl) (.append hvalue hrest hstops))

end LexesAs

mutual

/--
The tokens of a value.
-/
def tokens : Json → List Token
  | .null => [.null]
  | .bool b => [.bool b]
  | .number n => [.number n]
  | .string s => [.string s]
  | .array [] => [.openArray, .closeArray]
  | .array (item :: rest) => .openArray :: (item.tokens ++ tokensAfterItem rest)
  | .object [] => [.openObject, .closeObject]
  | .object ((name, value) :: rest) =>
    .openObject :: .string name :: .colon :: (value.tokens ++ tokensAfterField rest)

def tokensAfterItem : List Json → List Token
  | [] => [.closeArray]
  | item :: rest => .comma :: (item.tokens ++ tokensAfterItem rest)

def tokensAfterField : List (String × Json) → List Token
  | [] => [.closeObject]
  | (name, value) :: rest => .comma :: .string name :: .colon :: (value.tokens ++ tokensAfterField rest)

end

/--
Values with integers for numbers, of 64 bits, in which no more than so many arrays and objects stand within each other.
-/
inductive Readable : Nat → Json → Prop where
  | null {room : Nat} : Readable room .null
  | bool {room : Nat} (b : Bool) : Readable room (.bool b)
  | number {room : Nat} {n : Int} (hlo : -(Nat.pow 2 63 : Int) ≤ n) (hhi : n < (Nat.pow 2 64 : Int)) :
      Readable room (.number (.int n))
  | string {room : Nat} (s : String) : Readable room (.string s)
  | array {room : Nat} {items : List Json} (h : ∀ item ∈ items, Readable room item) :
      Readable (room + 1) (.array items)
  | object {room : Nat} {fields : List (String × Json)} (h : ∀ field ∈ fields, Readable room field.2) :
      Readable (room + 1) (.object fields)

theorem Readable.int64 {room : Nat} (n : Int64) : Readable room (.number (.int n.toInt)) :=
  have hhi : n.toInt < (Nat.pow 2 63 : Int) := n.toInt_lt
  .number n.le_toInt (Int.lt_trans hhi (by decide))

theorem stops_writeItems (items : List Json) (rest : List Char) : Stops continuesNumber (writeItems items ++ rest) := by
  cases items with
  | nil => exact stops_cons.mpr rfl
  | cons => exact stops_cons.mpr rfl

theorem stops_writeFields (fields : List (String × Json)) (rest : List Char) :
    Stops continuesNumber (writeFields fields ++ rest) := by
  cases fields with
  | nil => exact stops_cons.mpr rfl
  | cons => exact stops_cons.mpr rfl

mutual

/--
The text of a value is recognised as its tokens.
-/
theorem lexesAs_write {room : Nat} (j : Json) (h : Readable room j) : LexesAs j.write j.tokens := by
  cases j with
  | null =>
    intro rest _
    exact tokens?_of_token? (stops_cons.mpr rfl) rfl
  | bool b =>
    intro rest _
    cases b with
    | true => exact tokens?_of_token? (stops_cons.mpr rfl) rfl
    | false => exact tokens?_of_token? (stops_cons.mpr rfl) rfl
  | number n =>
    cases h with
    | number hlo hhi => exact .integer hlo hhi
  | string s =>
    have hstring := LexesAs.writeString s .nil
    rw [List.append_nil] at hstring
    exact hstring
  | array items =>
    cases h with
    | array hitems =>
    cases items with
    | nil => exact .cons rfl (fun _ => rfl) (.cons rfl (fun _ => rfl) .nil)
    | cons item rest =>
      rw [List.forall_mem_cons] at hitems
      apply LexesAs.cons rfl (fun _ => rfl)
      exact .append (lexesAs_write item hitems.1) (lexesAs_writeItems rest hitems.2) (stops_writeItems rest)
  | object fields =>
    cases h with
    | object hfields =>
    cases fields with
    | nil => exact .cons rfl (fun _ => rfl) (.cons rfl (fun _ => rfl) .nil)
    | cons field rest =>
      rw [List.forall_mem_cons] at hfields
      unfold write tokens
      rw [List.append_assoc]
      apply LexesAs.cons rfl (fun _ => rfl)
      have hrest := lexesAs_writeFields rest hfields.2
      exact .field field.1 (lexesAs_write field.2 hfields.1) hrest (stops_writeFields rest)

theorem lexesAs_writeItems {room : Nat} (items : List Json) (h : ∀ item ∈ items, Readable room item) :
    LexesAs (writeItems items) (tokensAfterItem items) := by
  cases items with
  | nil => exact .cons rfl (fun _ => rfl) .nil
  | cons item rest =>
    rw [List.forall_mem_cons] at h
    apply LexesAs.cons rfl (fun _ => rfl)
    exact .append (lexesAs_write item h.1) (lexesAs_writeItems rest h.2) (stops_writeItems rest)

theorem lexesAs_writeFields {room : Nat} (fields : List (String × Json)) (h : ∀ field ∈ fields, Readable room field.2) :
    LexesAs (writeFields fields) (tokensAfterField fields) := by
  cases fields with
  | nil => exact .cons rfl (fun _ => rfl) .nil
  | cons field rest =>
    rw [List.forall_mem_cons] at h
    unfold writeFields tokensAfterField
    rw [List.append_assoc]
    apply LexesAs.cons rfl (fun _ => rfl)
    exact .field field.1 (lexesAs_write field.2 h.1) (lexesAs_writeFields rest h.2) (stops_writeFields rest)

end

theorem tokens_ne_closeArray (j : Json) (ts more : List Token) : j.tokens ++ ts ≠ .closeArray :: more := by
  cases j with
  | array items => cases items <;> simp [tokens]
  | object fields => cases fields <;> simp [tokens]
  | null | bool | number | string => simp [tokens]

theorem readValue_openArray {ts : List Token} {frames : List Frame} (hroom : frames.length < depthLimit)
    (h : ∀ more, ts ≠ .closeArray :: more) :
    readValue (.openArray :: ts) frames = readValue ts (.array [] :: frames) := by
  rw [readValue]
  · rw [if_pos hroom]
  · exact h

mutual

/--
A value is read from its tokens where there is room for it, and what follows is read with it at hand.
-/
theorem readValue_tokens {room : Nat} (j : Json) (h : Readable room j) {frames : List Frame}
    (hroom : room + frames.length ≤ depthLimit) (rest : List Token) :
    readValue (j.tokens ++ rest) frames = readAfter j rest frames := by
  cases j with
  | null | bool | number | string => rw [tokens, List.singleton_append, readValue]
  | array items =>
    cases h with
    | array hitems =>
    cases items with
    | nil =>
      rw [tokens, List.cons_append, List.singleton_append, readValue, if_pos (by omega)]
    | cons item more =>
      rw [List.forall_mem_cons] at hitems
      rw [tokens, List.cons_append, List.append_assoc, readValue_openArray (by omega) (tokens_ne_closeArray item _),
        readValue_tokens item hitems.1 (by rw [List.length_cons]; omega),
        readAfter_tokensAfterItem more hitems.2 (by omega)]
      rfl
  | object fields =>
    cases h with
    | object hfields =>
    cases fields with
    | nil =>
      rw [tokens, List.cons_append, List.singleton_append, readValue, if_pos (by omega)]
    | cons field more =>
      rw [List.forall_mem_cons] at hfields
      rw [tokens, List.cons_append, List.cons_append, List.cons_append, List.append_assoc, readValue,
        if_pos (by omega), readValue_tokens field.2 hfields.1 (by rw [List.length_cons]; omega),
        readAfter_tokensAfterField more hfields.2 (by omega)]
      rfl

theorem readAfter_tokensAfterItem {room : Nat} (items : List Json) (h : ∀ item ∈ items, Readable room item)
    {value : Json} {done : List Json} {frames : List Frame} (hroom : room + 1 + frames.length ≤ depthLimit)
    (rest : List Token) :
    readAfter value (tokensAfterItem items ++ rest) (.array done :: frames) =
      readAfter (.array ((value :: done).reverse ++ items)) rest frames := by
  -- The items that are done lie on the frame latest first.
  cases items with
  | nil => rw [tokensAfterItem, List.singleton_append, readAfter, List.append_nil]
  | cons item more =>
    rw [List.forall_mem_cons] at h
    rw [tokensAfterItem, List.cons_append, List.append_assoc, readAfter,
      readValue_tokens item h.1 (by rw [List.length_cons]; omega), readAfter_tokensAfterItem more h.2 hroom,
      List.reverse_cons, List.append_assoc]
    rfl

theorem readAfter_tokensAfterField {room : Nat} (fields : List (String × Json))
    (h : ∀ field ∈ fields, Readable room field.2) {name : String} {value : Json} {done : List (String × Json)}
    {frames : List Frame} (hroom : room + 1 + frames.length ≤ depthLimit) (rest : List Token) :
    readAfter value (tokensAfterField fields ++ rest) (.object done name :: frames) =
      readAfter (.object (((name, value) :: done).reverse ++ fields)) rest frames := by
  cases fields with
  | nil => rw [tokensAfterField, List.singleton_append, readAfter, List.append_nil]
  | cons field more =>
    rw [List.forall_mem_cons] at h
    rw [tokensAfterField, List.cons_append, List.cons_append, List.cons_append, List.append_assoc, readAfter,
      readValue_tokens field.2 h.1 (by rw [List.length_cons]; omega), readAfter_tokensAfterField more h.2 hroom,
      List.reverse_cons, List.append_assoc]
    rfl

end

theorem tokens?_nil : tokens? [] = some [] := by
  rw [tokens?]
  rfl

/--
A value is read back from its text, with every field as it was written.
-/
theorem parseFields?_text {j : Json} (h : Readable depthLimit j) : parseFields? j.text = some j := by
  have hlex := lexesAs_write j h [] (stops_nil _)
  rw [List.append_nil, tokens?_nil, Option.map_some] at hlex
  unfold parseFields? text
  rw [String.toList_ofList, hlex]
  dsimp only
  rw [readValue_tokens j h (Nat.le_refl _), readAfter]

end Narrative.Json

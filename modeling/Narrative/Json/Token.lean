import Narrative.Json.Literal

/-!
This module contains the tokens of JSON and their recognition in a text.
-/

namespace Narrative.Json

/--
A token: a bracket, a separator, or a scalar with its value.
-/
inductive Token where
  | openArray
  | closeArray
  | openObject
  | closeObject
  | comma
  | colon
  | null
  | bool (b : Bool)
  | number (n : Number)
  | string (s : String)

def hexDigit? (c : Char) : Option Nat :=
  if c.isDigit then
    some (c.toNat - '0'.toNat)
  else if 'a' ≤ c && c ≤ 'f' then
    some (c.toNat - 'a'.toNat + 10)
  else if 'A' ≤ c && c ≤ 'F' then
    some (c.toNat - 'A'.toNat + 10)
  else
    none

def hexUnit? : List Char → Option (Nat × List Char)
  | a :: b :: c :: d :: rest => do
    let a ← hexDigit? a
    let b ← hexDigit? b
    let c ← hexDigit? c
    let d ← hexDigit? d
    return (((a * 16 + b) * 16 + c) * 16 + d, rest)
  | _ => none

/--
The character of an escape with digits: one unit, or two that are a surrogate pair.
-/
def unicodeEscape? (cs : List Char) : Option (Char × List Char) :=
  match hexUnit? cs with
  | none => none
  | some (high, rest) =>
    if 0xD800 ≤ high && high < 0xDC00 then
      match rest with
      | '\\' :: 'u' :: more =>
        match hexUnit? more with
        | some (low, rest) =>
          if 0xDC00 ≤ low && low < 0xE000 then
            some (Char.ofNat (0x10000 + (high - 0xD800) * 0x400 + (low - 0xDC00)), rest)
          else
            none
        | none => none
      | _ => none
    else if 0xDC00 ≤ high && high < 0xE000 then
      none
    else
      some (Char.ofNat high, rest)

/--
The character of an escape, given what stands behind the backslash.
-/
def escape? : List Char → Option (Char × List Char)
  | [] => none
  | c :: rest =>
    match c with
    | '"' => some ('"', rest)
    | '\\' => some ('\\', rest)
    | '/' => some ('/', rest)
    | 'b' => some ('\x08', rest)
    | 'f' => some ('\x0c', rest)
    | 'n' => some ('\n', rest)
    | 'r' => some ('\r', rest)
    | 't' => some ('\t', rest)
    | 'u' => unicodeEscape? rest
    | _ => none

theorem length_hexUnit?_lt {cs rest : List Char} {n : Nat} (h : hexUnit? cs = some (n, rest)) :
    rest.length < cs.length := by
  unfold hexUnit? at h
  split at h
  · simp only [Option.bind_eq_bind, Option.bind_eq_some_iff, Option.pure_def, Option.some.injEq,
      Prod.mk.injEq] at h
    obtain ⟨_, _, _, _, _, _, _, _, _, rfl⟩ := h
    simp only [List.length_cons]
    omega
  · simp at h

theorem length_unicodeEscape?_lt {cs rest : List Char} {c : Char}
    (h : unicodeEscape? cs = some (c, rest)) : rest.length < cs.length := by
  unfold unicodeEscape? at h
  split at h
  · simp at h
  · rename_i high more hunit
    have hlt := length_hexUnit?_lt hunit
    split at h
    · split at h
      · split at h
        · rename_i hlow
          have hlt' := length_hexUnit?_lt hlow
          split at h
          · simp only [Option.some.injEq, Prod.mk.injEq] at h
            obtain ⟨-, rfl⟩ := h
            simp only [List.length_cons] at hlt
            omega
          · simp at h
        · simp at h
      · simp at h
    · split at h
      · simp at h
      · simp only [Option.some.injEq, Prod.mk.injEq] at h
        obtain ⟨-, rfl⟩ := h
        exact hlt

theorem length_escape?_lt {cs rest : List Char} {c : Char} (h : escape? cs = some (c, rest)) :
    rest.length < cs.length := by
  unfold escape? at h
  split at h
  · simp at h
  · rename_i head more
    split at h
    case h_9 =>
      have hlt := length_unicodeEscape?_lt h
      simp only [List.length_cons]
      omega
    all_goals simp_all

/--
The content of a string, given what stands behind the opening quote. Control characters are not
allowed in it.
-/
def stringBody? : List Char → Option (List Char × List Char)
  | [] => none
  | c :: rest =>
    if c = '"' then
      some ([], rest)
    else if c = '\\' then
      match _h : escape? rest with
      | none => none
      | some (d, more) => (stringBody? more).map (fun (body, rest) => (d :: body, rest))
    else if c < ' ' then
      none
    else
      (stringBody? rest).map (fun (body, rest) => (c :: body, rest))
termination_by cs => cs.length
decreasing_by
  · have hlt := length_escape?_lt _h
    simp only [List.length_cons]
    omega
  · simp

def isSpace (c : Char) : Bool :=
  c == ' ' || c == '\n' || c == '\t' || c == '\r'

/--
The token at the front of a text that does not begin with a space.
-/
def token? : List Char → Option (Token × List Char)
  | [] => none
  | c :: rest =>
    match c with
    | '[' => some (.openArray, rest)
    | ']' => some (.closeArray, rest)
    | '\x7b' => some (.openObject, rest)
    | '\x7d' => some (.closeObject, rest)
    | ',' => some (.comma, rest)
    | ':' => some (.colon, rest)
    | '"' => (stringBody? rest).map (fun (body, rest) => (.string (String.ofList body), rest))
    | 'n' => (List.isPrefixOf? "ull".toList rest).map (.null, ·)
    | 't' => (List.isPrefixOf? "rue".toList rest).map (.bool true, ·)
    | 'f' => (List.isPrefixOf? "alse".toList rest).map (.bool false, ·)
    | _ =>
      match literal? (c :: rest) with
      | none => none
      | some (literal, rest) => literal.number?.map (.number ·, rest)

theorem length_stringBody?_le {cs body rest : List Char} (h : stringBody? cs = some (body, rest)) :
    rest.length ≤ cs.length := by
  fun_induction stringBody? cs generalizing body rest with
  | case1 => simp at h
  | case2 => simp_all
  | case3 => simp at h
  | case4 tail d more hescape _ ih =>
    obtain ⟨⟨inner, last⟩, hmore, heq⟩ := Option.map_eq_some_iff.mp h
    cases heq
    have hlt := length_escape?_lt hescape
    have hle := ih hmore
    simp only [List.length_cons]
    omega
  | case5 => simp at h
  | case6 _ tail _ _ _ ih =>
    obtain ⟨⟨inner, last⟩, hmore, heq⟩ := Option.map_eq_some_iff.mp h
    cases heq
    have hle := ih hmore
    simp only [List.length_cons]
    omega

theorem length_isPrefixOf?_le {start cs rest : List Char}
    (h : List.isPrefixOf? start cs = some rest) : rest.length ≤ cs.length := by
  induction start generalizing cs with
  | nil =>
    have heq : some cs = some rest := h
    cases heq
    exact Nat.le_refl _
  | cons c more ih =>
    cases cs with
    | nil => cases h
    | cons d tail =>
      have hhead : (if c == d then List.isPrefixOf? more tail else none) = some rest := h
      split at hhead
      · have hle := ih hhead
        simp only [List.length_cons]
        omega
      · cases hhead

theorem length_token?_lt {cs rest : List Char} {t : Token} (h : token? cs = some (t, rest)) :
    rest.length < cs.length := by
  unfold token? at h
  split at h
  · simp at h
  · rename_i c tail
    simp only [List.length_cons]
    split at h
    case h_7 =>
      obtain ⟨⟨body, more⟩, hbody, heq⟩ := Option.map_eq_some_iff.mp h
      cases heq
      have hle := length_stringBody?_le hbody
      omega
    case h_8 =>
      obtain ⟨more, hmore, heq⟩ := Option.map_eq_some_iff.mp h
      cases heq
      have hle := length_isPrefixOf?_le hmore
      omega
    case h_9 =>
      obtain ⟨more, hmore, heq⟩ := Option.map_eq_some_iff.mp h
      cases heq
      have hle := length_isPrefixOf?_le hmore
      omega
    case h_10 =>
      obtain ⟨more, hmore, heq⟩ := Option.map_eq_some_iff.mp h
      cases heq
      have hle := length_isPrefixOf?_le hmore
      omega
    case h_11 =>
      split at h
      · simp at h
      · rename_i hliteral
        obtain ⟨n, -, heq⟩ := Option.map_eq_some_iff.mp h
        cases heq
        have hlt := length_literal?_lt hliteral
        simp only [List.length_cons] at hlt
        omega
    all_goals
      simp only [Option.some.injEq, Prod.mk.injEq] at h
      obtain ⟨-, rfl⟩ := h
      omega

def tokens? (cs : List Char) : Option (List Token) :=
  match _h : cs.dropWhile isSpace with
  | [] => some []
  | c :: rest =>
    match _ht : token? (c :: rest) with
    | none => none
    | some (t, more) => (tokens? more).map (t :: ·)
termination_by cs.length
decreasing_by
  have hle : (cs.dropWhile isSpace).length ≤ cs.length := (List.dropWhile_sublist isSpace).length_le
  have hlt := length_token?_lt _ht
  rw [_h] at hle
  omega

end Narrative.Json

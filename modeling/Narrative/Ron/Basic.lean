import Narrative.Decimal.Literal

/-!
This module contains RON values. A word is kept as it was written, since how it is read depends on the
field it stands in.
-/

namespace Narrative

inductive Ron where
  | word (w : String)
  | text (s : String)
  | char (c : Char)
  | list (items : List Ron)
  | map (entries : List (Ron × Ron))
  | tuple (name : Option String) (items : List Ron)
  | record (name : Option String) (fields : List (String × Ron))
  | optional (value : Ron)

namespace Ron

def splitBase : List Char → Nat × List Char
  | '0' :: 'x' :: digits => (16, digits)
  | '0' :: 'o' :: digits => (8, digits)
  | '0' :: 'b' :: digits => (2, digits)
  | digits => (10, digits)

def digitValue (c : Char) : Nat :=
  if c.isDigit then
    c.toNat - '0'.toNat
  else if 'a' ≤ c && c ≤ 'f' then
    c.toNat - 'a'.toNat + 10
  else if 'A' ≤ c && c ≤ 'F' then
    c.toNat - 'A'.toNat + 10
  else
    16

/--
The value of an unsigned integer literal. Underscores may stand anywhere behind its first digit.
-/
def magnitude? (cs : List Char) : Option Nat :=
  let (base, digits) := splitBase cs
  let values := (digits.filter (· != '_')).map digitValue
  if digits.isEmpty || digits.head? == some '_' || values.any (base ≤ ·) then
    none
  else
    some (values.foldl (fun n digit => n * base + digit) 0)

def splitSign : List Char → Option Bool × List Char
  | '-' :: rest => (some true, rest)
  | '+' :: rest => (some false, rest)
  | cs => (none, cs)

/--
The value of an integer literal that fits a signed 64 bit word.
-/
def int64OfWord? (w : String) : Option Int64 := do
  let (sign, digits) := splitSign w.toList
  let magnitude ← magnitude? digits
  Text.word? (if sign == some true then -(magnitude : Int) else magnitude)

/--
The value of a word for a double: a decimal literal without underscores, infinity, or no number. Each may
have a sign.
-/
def floatOfWord? (w : String) : Option Float :=
  match w with
  | "inf" | "+inf" => some (1 / 0)
  | "-inf" => some (-1 / 0)
  | "NaN" | "+NaN" | "-NaN" => some (0 / 0)
  | _ => Decimal.signed? w.toList

/--
Whether a word is a number where its type is not known: a double, or an integer that fits 64 bits, which
has a sign bit if it has a sign.
-/
def isNumber (w : String) : Bool :=
  let (sign, digits) := splitSign w.toList
  let isInteger :=
    if sign.isSome then (int64OfWord? w).isSome else (magnitude? digits).any (· < Nat.pow 2 64)
  isInteger || (floatOfWord? w).isSome

end Ron

end Narrative

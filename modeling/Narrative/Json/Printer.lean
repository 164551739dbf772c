import Narrative.Json.Basic
import Narrative.Decimal.Layout
import Narrative.Text.Numeral

/-!
This module contains the compact text of JSON values.
-/

namespace Narrative.Json

/--
Doubles are positional from `0.00001` up to, not including, `1e16`, keep a fraction, and sign both
directions of an exponent. A tie goes to the even digit.
-/
def doubleLayout : Decimal.Layout where
  tie := .toEven
  positional power := -5 ≤ power && power < 16
  wholeEnd := ['.', '0']
  exponentSign := ['+']
  notFinite := "null".toList

def hexChar (n : Nat) : Char :=
  Nat.digitChar n

/--
A character within quotes: quote, backslash and control characters are escaped.
-/
def writeChar (c : Char) : List Char :=
  match c with
  | '"' => ['\\', '"']
  | '\\' => ['\\', '\\']
  | '\x08' => ['\\', 'b']
  | '\x0c' => ['\\', 'f']
  | '\n' => ['\\', 'n']
  | '\r' => ['\\', 'r']
  | '\t' => ['\\', 't']
  | _ =>
    if c < ' ' then
      ['\\', 'u', '0', '0', hexChar (c.toNat / 16), hexChar (c.toNat % 16)]
    else
      [c]

def writeString (s : String) : List Char :=
  '"' :: s.toList.flatMap writeChar ++ ['"']

def Number.write : Number → List Char
  | .int n => Text.integer n
  | .double x => doubleLayout.write x

mutual

/--
The text of a value, without blanks, fields in their order.
-/
def write : Json → List Char
  | .null => "null".toList
  | .bool true => "true".toList
  | .bool false => "false".toList
  | .number n => n.write
  | .string s => writeString s
  | .array [] => ['[', ']']
  | .array (item :: rest) => '[' :: item.write ++ writeItems rest
  | .object [] => ['\x7b', '\x7d']
  | .object ((name, value) :: rest) =>
    '\x7b' :: writeString name ++ ':' :: value.write ++ writeFields rest

def writeItems : List Json → List Char
  | [] => [']']
  | item :: rest => ',' :: item.write ++ writeItems rest

def writeFields : List (String × Json) → List Char
  | [] => ['\x7d']
  | (name, value) :: rest => ',' :: writeString name ++ ':' :: value.write ++ writeFields rest

end

def text (j : Json) : String :=
  String.ofList j.write

instance : ToString Json := ⟨text⟩

end Narrative.Json

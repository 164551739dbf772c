import Narrative.Decimal.Binary64
import Narrative.Text.Numeral

/-!
This module contains the reading of decimal literals as the nearest double.
-/

namespace Narrative.Decimal

/--
The exponent part of a literal: nothing, or `e` and a signed number.
-/
def exponentPart? : List Char → Option Int
  | [] => some 0
  | c :: rest => if c == 'e' || c == 'E' then Text.integer? rest else none

/--
The double nearest to an unsigned literal: digits with an optional point among them, at least one, and
an optional exponent.
-/
def unsigned? (cs : List Char) : Option Float :=
  let whole := cs.takeWhile Char.isDigit
  let afterWhole := cs.dropWhile Char.isDigit
  let (fraction, rest) :=
    match afterWhole with
    | '.' :: more => (more.takeWhile Char.isDigit, more.dropWhile Char.isDigit)
    | _ => ([], afterWhole)
  match Text.natural? (whole ++ fraction), exponentPart? rest with
  | some significand, some exponent => some (ofDecimal significand (exponent - fraction.length))
  | _, _ => none

/--
The double nearest to a literal with an optional sign.
-/
def signed? : List Char → Option Float
  | '-' :: rest => (unsigned? rest).map (-·)
  | '+' :: rest => unsigned? rest
  | cs => unsigned? cs

/--
The value of a word for a double that is no finite number, in any case.
-/
def special? (cs : List Char) : Option Float :=
  match String.ofList (cs.map Char.toLower) with
  | "inf" | "infinity" => some (1 / 0)
  | "nan" => some (0 / 0)
  | _ => none

/--
Read a double: a literal or a word for infinity or no number, behind an optional sign.
-/
def double? (cs : List Char) : Option Float :=
  match signed? cs, cs with
  | some x, _ => some x
  | none, '-' :: rest => (special? rest).map (-·)
  | none, '+' :: rest => special? rest
  | none, rest => special? rest

end Narrative.Decimal

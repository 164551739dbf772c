import Narrative.Decimal.Shortest

/-!
This module contains the layout of a decimal as text: which of two equally near decimals is written,
where positional notation ends, whether whole numbers keep a fraction, and how an exponent is written.
-/

namespace Narrative.Decimal

/--
How the digits of a number are laid out. A number `d.ddd * 10 ^ p` is written positionally when
`positional p`, otherwise with an exponent.
-/
structure Layout where
  tie : Tie
  positional : Int → Bool
  /-- Behind the digits of a whole number. -/
  wholeEnd : List Char
  /-- In front of an exponent that is not negative. -/
  exponentSign : List Char
  /-- The text of a value that is no number. -/
  notFinite : List Char

def Layout.position (layout : Layout) (digits : List Char) (point : Int) : List Char :=
  if point ≤ 0 then
    ['0', '.'] ++ List.replicate (-point).toNat '0' ++ digits
  else if digits.length ≤ point then
    digits ++ List.replicate (point - digits.length).toNat '0' ++ layout.wholeEnd
  else
    digits.take point.toNat ++ '.' :: digits.drop point.toNat

/--
The digits with one of them in front of the point, and an exponent.
-/
def Layout.scientific (layout : Layout) (digits : List Char) (power : Int) : List Char :=
  let fraction :=
    match digits.drop 1 with
    | [] => []
    | rest => '.' :: rest
  let exponent :=
    if power < 0 then
      '-' :: Nat.toDigits 10 power.natAbs
    else
      layout.exponentSign ++ Nat.toDigits 10 power.natAbs
  digits.take 1 ++ fraction ++ 'e' :: exponent

def Layout.write (layout : Layout) (x : Float) : List Char :=
  match magnitude? x with
  | none => layout.notFinite
  | some magnitude =>
    let sign := if signBit x then ['-'] else []
    if magnitude.significand = 0 then
      sign ++ layout.position ['0'] 1
    else
      let shortest := shortest layout.tie magnitude
      let digits := Nat.toDigits 10 shortest.significand
      let power := shortest.exponent + digits.length - 1
      if layout.positional power then
        sign ++ layout.position digits (power + 1)
      else
        sign ++ layout.scientific digits power

end Narrative.Decimal

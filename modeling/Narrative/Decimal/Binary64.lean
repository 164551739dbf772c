/-!
This module contains the exact values behind double precision numbers: the magnitude of a double as a
significand times a power of two, and the double nearest to a quotient of natural numbers.
-/

namespace Narrative.Decimal

structure Dyadic where
  significand : Nat
  exponent : Int
  deriving DecidableEq, Repr

def signBit (x : Float) : Bool :=
  Nat.pow 2 63 ≤ x.toBits.toNat

def magnitude? (x : Float) : Option Dyadic :=
  let bits := x.toBits.toNat
  let fraction : Nat := bits % Nat.pow 2 52
  let field : Nat := bits / Nat.pow 2 52 % Nat.pow 2 11
  if field = 2047 then
    none
  else if field = 0 then
    some ⟨fraction, -1074⟩
  else
    some ⟨fraction + Nat.pow 2 52, (field : Int) - 1075⟩

/--
The quotient rounded to the nearest natural number, a tie to the even one.
-/
def roundDiv (num den : Nat) : Nat :=
  let quotient := num / den
  let twice := 2 * (num % den)
  if twice < den ∨ (twice = den ∧ quotient % 2 = 0) then quotient else quotient + 1

/--
The double nearest to `num / den`, a tie to the even significand. What is too large becomes infinity.
-/
def nearest (num den : Nat) : Float :=
  if num = 0 then
    Float.ofBits 0
  else
    -- `num / den` lies strictly between `2 ^ (guess + 52)` and `2 ^ (guess + 54)`.
    let guess : Int := (num.log2 : Int) - den.log2 - 53
    let scaled (e : Int) : Nat × Nat := (num * Nat.pow 2 (-e).toNat, den * Nat.pow 2 e.toNat)
    let (wideNum, wideDen) := scaled guess
    let exponent := max (if Nat.pow 2 53 * wideDen ≤ wideNum then guess + 1 else guess) (-1074)
    let (num, den) := scaled exponent
    let bits := (exponent + 1074).toNat * Nat.pow 2 52 + roundDiv num den
    Float.ofBits (UInt64.ofNat (min bits (2047 * Nat.pow 2 52)))

/--
The double nearest to `significand * 10 ^ exponent`. The first two tests only keep far exponents from
being computed.
-/
def ofDecimal (significand : Nat) (exponent : Int) : Float :=
  let leading := (Nat.toDigits 10 significand).length + exponent
  if significand = 0 ∨ leading < -330 then
    Float.ofBits 0
  else if 330 < leading then
    nearest (Nat.pow 2 1024) 1
  else
    nearest (significand * Nat.pow 10 exponent.toNat) (Nat.pow 10 (-exponent).toNat)

def ofInt (n : Int) : Float :=
  if n < 0 then -nearest n.natAbs 1 else nearest n.natAbs 1

example : (ofDecimal 1 (-1)).toBits = 0x3fb999999999999a ∧ (ofDecimal 5 (-324)).toBits = 1 ∧
    (ofDecimal 17976931348623159 292).toBits = 0x7ff0000000000000 := by
  decide +kernel

end Narrative.Decimal

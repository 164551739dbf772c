import Narrative.Decimal.Binary64

/-!
This module contains the shortest decimal of a double: the fewest digits that read back as the same
double, and among those the nearest to it. Where two are as near as each other, the format decides.
-/

namespace Narrative.Decimal

/--
The number `significand * 10 ^ exponent`, whose significand does not end in a zero.
-/
structure Digits where
  significand : Nat
  exponent : Int
  deriving DecidableEq, Repr

inductive Tie where
  | toEven
  | up
  deriving DecidableEq, Repr

def Tie.round (tie : Tie) (num den : Nat) : Nat :=
  match tie with
  | .toEven => roundDiv num den
  | .up => (2 * num + den) / (2 * den)

/--
Move the trailing zeros of the significand into the exponent.
-/
def Digits.normalize (d : Digits) : Digits :=
  if 0 < d.significand ∧ d.significand % 10 = 0 then
    normalize ⟨d.significand / 10, d.exponent + 1⟩
  else
    d
termination_by d.significand
decreasing_by omega

/--
The place of the first digit: `10 ^ place ≤ num / den < 10 ^ (place + 1)`.
-/
def leadingPlace (num den : Nat) : Int :=
  if den ≤ num then
    (Nat.toDigits 10 (num / den)).length - 1
  else
    -((Nat.toDigits 10 ((den - 1) / num)).length : Int)

/--
The point of the grid `10 ^ place` that reads back as the given magnitude, the nearer one where both
neighbours do.
-/
def gridPoint? (tie : Tie) (x : Dyadic) (place : Int) : Option Nat :=
  -- A quarter of the magnitude's unit, measured in steps of the grid, is `unit / step`.
  let unit := Nat.pow 2 (x.exponent - 2).toNat * Nat.pow 10 (-place).toNat
  let step := Nat.pow 2 (2 - x.exponent).toNat * Nat.pow 10 place.toNat
  let middle := 4 * x.significand
  let atBinade := x.significand = Nat.pow 2 52 ∧ -1074 < x.exponent
  let low := (if atBinade then middle - 1 else middle - 2) * unit
  let high := (middle + 2) * unit
  let closed := x.significand % 2 = 0
  let below := middle * unit / step
  let above := below + 1
  let belowReads := low < below * step ∨ (closed ∧ low = below * step)
  let aboveReads := above * step < high ∨ (closed ∧ above * step = high)
  if belowReads ∧ aboveReads then
    some (tie.round (middle * unit) step)
  else if belowReads then
    some below
  else if aboveReads then
    some above
  else
    none

/--
The shortest decimal that reads back as a positive magnitude: the first grid, of one to seventeen
digits, that holds such a point.
-/
def shortest (tie : Tie) (x : Dyadic) : Digits :=
  let top := leadingPlace (x.significand * Nat.pow 2 x.exponent.toNat) (Nat.pow 2 (-x.exponent).toNat)
  let found := (List.range 17).findSome? fun (more : Nat) =>
    (gridPoint? tie x (top - more)).map (Digits.mk · (top - more))
  (found.getD ⟨0, 0⟩).normalize

/-! The double `1600000000000000.25` lies half way between two decimals of the same length. -/

example : shortest .toEven ⟨6400000000000001, -2⟩ = ⟨16000000000000002, -1⟩ := by
  decide +kernel

example : shortest .up ⟨6400000000000001, -2⟩ = ⟨16000000000000003, -1⟩ := by
  decide +kernel

end Narrative.Decimal

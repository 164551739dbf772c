import Narrative.Json.Basic
import Narrative.Decimal.Binary64
import Narrative.Text.Numeral

/-!
This module contains the number literals of JSON and their values. The value of a literal with a
fraction or an exponent is the quick approximation that keeps 64 bits of the digits and then multiplies
or divides once by a power of ten, which may differ from the nearest double in the last place.
-/

namespace Narrative.Json

/--
The parts of a number literal; `fraction` and `exponent` are missing where their mark is.
-/
structure Literal where
  negative : Bool
  whole : List Char
  fraction : Option (List Char)
  exponent : Option Int

namespace Literal

/--
Take digits into the significand as long as it fits 64 bits. The digits that remain begin with the first
that does not.
-/
def absorb (significand : Nat) : List Char → Nat × List Char
  | [] => (significand, [])
  | c :: rest =>
    let next := significand * 10 + (c.toNat - '0'.toNat)
    if next < Nat.pow 2 64 then absorb next rest else (significand, c :: rest)

def powerOfTen (n : Nat) : Float :=
  Decimal.ofDecimal 1 n

/--
Divide by a power of ten, in steps of the greatest power that is a double.
-/
def scaleDown (x : Float) (power : Nat) : Float :=
  if power ≤ 308 then
    x / powerOfTen power
  else if x == 0 then
    x
  else
    scaleDown (x / powerOfTen 308) (power - 308)
termination_by power
decreasing_by omega

/--
Multiply by a power of ten; there is no value beyond the greatest double.
-/
def scale? (x : Float) (power : Int) : Option Float :=
  if power < 0 then
    some (scaleDown x power.natAbs)
  else if power ≤ 308 then
    let scaled := x * powerOfTen power.toNat
    if scaled.isInf then none else some scaled
  else if x == 0 then
    some x
  else
    none

/--
The double of a literal: its first digits, and the power of ten that the digits in front of and behind
the point leave.
-/
def double? (literal : Literal) : Option Float :=
  let (significand, beyond) := absorb 0 literal.whole
  let fraction := literal.fraction.getD []
  let (significand, dropped) := absorb significand fraction
  let power := literal.exponent.getD 0 + beyond.length - (fraction.length - dropped.length : Nat)
  let value := scale? (Decimal.ofInt significand) power
  if literal.negative then value.map (-·) else value

def number? (literal : Literal) : Option Number :=
  match literal.fraction, literal.exponent with
  | none, none =>
    let magnitude := Nat.ofDigitChars 10 literal.whole 0
    if literal.negative && 0 < magnitude && magnitude ≤ Nat.pow 2 63 then
      some (.int (-(magnitude : Int)))
    else if !literal.negative && magnitude < Nat.pow 2 64 then
      some (.int magnitude)
    else
      literal.double?.map .double
  | _, _ => literal.double?.map .double

end Literal

def spanDigits (cs : List Char) : List Char × List Char :=
  (cs.takeWhile Char.isDigit, cs.dropWhile Char.isDigit)

/--
Split off the fraction of a literal: a point with digits behind it.
-/
def fraction? : List Char → Option (Option (List Char) × List Char)
  | '.' :: rest =>
    match spanDigits rest with
    | ([], _) => none
    | (digits, more) => some (some digits, more)
  | cs => some (none, cs)

/--
Split off the digits of an exponent, at least one.
-/
def exponentDigits? (cs : List Char) : Option (Nat × List Char) :=
  match spanDigits cs with
  | ([], _) => none
  | (digits, more) => some (Nat.ofDigitChars 10 digits 0, more)

/--
Split off the exponent of a literal: the mark, an optional sign and digits.
-/
def exponent? : List Char → Option (Option Int × List Char)
  | [] => some (none, [])
  | c :: rest =>
    if c == 'e' || c == 'E' then
      match rest with
      | '-' :: digits => (exponentDigits? digits).map (fun (n, more) => (some (-(n : Int)), more))
      | '+' :: digits => (exponentDigits? digits).map (fun (n, more) => (some (n : Int), more))
      | digits => (exponentDigits? digits).map (fun (n, more) => (some (n : Int), more))
    else
      some (none, c :: rest)

/--
Split off the whole part of a literal: digits that do not begin with a zero, or one zero.
-/
def whole? (cs : List Char) : Option (List Char × List Char) :=
  match spanDigits cs with
  | ([], _) => none
  | ('0' :: _ :: _, _) => none
  | split => some split

def literal? (cs : List Char) : Option (Literal × List Char) := do
  let (negative, unsigned) :=
    match cs with
    | '-' :: rest => (true, rest)
    | _ => (false, cs)
  let (whole, rest) ← whole? unsigned
  let (fraction, rest) ← fraction? rest
  let (exponent, rest) ← exponent? rest
  return (⟨negative, whole, fraction, exponent⟩, rest)

theorem length_spanDigits (cs : List Char) :
    (spanDigits cs).1.length + (spanDigits cs).2.length = cs.length := by
  rw [← List.length_append]
  simp only [spanDigits, List.takeWhile_append_dropWhile]

theorem length_fraction?_le {cs rest : List Char} {fraction : Option (List Char)}
    (h : fraction? cs = some (fraction, rest)) : rest.length ≤ cs.length := by
  unfold fraction? at h
  split at h
  · rename_i more
    have hlen := length_spanDigits more
    split at h
    · simp at h
    · simp_all
      omega
  · simp_all

theorem length_exponentDigits?_le {cs rest : List Char} {n : Nat}
    (h : exponentDigits? cs = some (n, rest)) : rest.length ≤ cs.length := by
  have hlen := length_spanDigits cs
  unfold exponentDigits? at h
  split at h
  · simp at h
  · simp_all
    omega

theorem length_exponent?_le {cs rest : List Char} {exponent : Option Int}
    (h : exponent? cs = some (exponent, rest)) : rest.length ≤ cs.length := by
  unfold exponent? at h
  split at h
  · simp_all
  · split at h
    · split at h <;>
      · simp only [Option.map_eq_some_iff, Prod.exists, Prod.mk.injEq] at h
        obtain ⟨n, more, hdigits, -, rfl⟩ := h
        have hle := length_exponentDigits?_le hdigits
        simp only [List.length_cons] at *
        omega
    · simp_all

theorem length_whole?_lt {cs rest whole : List Char} (h : whole? cs = some (whole, rest)) :
    rest.length < cs.length := by
  have hlen := length_spanDigits cs
  unfold whole? at h
  split at h
  · simp_all
  · simp_all
  · rename_i hempty _
    simp only [Option.some.injEq] at h
    cases whole with
    | nil => exact absurd h (hempty rest)
    | cons c more =>
      rw [h] at hlen
      simp only [List.length_cons] at hlen
      omega

theorem length_literal?_lt {cs rest : List Char} {literal : Literal}
    (h : literal? cs = some (literal, rest)) : rest.length < cs.length := by
  simp only [literal?, Option.bind_eq_bind, Option.bind_eq_some_iff, Prod.exists, Option.pure_def,
    Option.some.injEq, Prod.mk.injEq] at h
  obtain ⟨whole, afterWhole, hwhole, fraction, afterFraction, hfraction, exponent, afterExponent,
    hexponent, -, rfl⟩ := h
  have h₁ := length_whole?_lt hwhole
  have h₂ := length_fraction?_le hfraction
  have h₃ := length_exponent?_le hexponent
  split at h₁ <;> simp_all <;> omega

end Narrative.Json

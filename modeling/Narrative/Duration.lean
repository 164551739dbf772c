import Narrative.Decimal.Binary64

/-!
This module contains spans of time: nanoseconds counted up to a greatest span, at which addition stops.
-/

namespace Narrative

/--
The greatest number of nanoseconds: one less than `2 ^ 64` seconds have.
-/
def Duration.limit : Nat := Nat.pow 2 64 * Nat.pow 10 9 - 1

structure Duration where
  nanos : Nat
  nanos_le : nanos ≤ Duration.limit
  deriving DecidableEq

namespace Duration

/--
The span of that many nanoseconds, or the greatest one.
-/
def ofNanos (n : Nat) : Duration :=
  ⟨min n limit, Nat.min_le_right n limit⟩

def zero : Duration := ofNanos 0

instance : Inhabited Duration := ⟨zero⟩

def greatest : Duration := ofNanos limit

def ofParts (seconds nanos : Nat) : Duration :=
  ofNanos (seconds * Nat.pow 10 9 + nanos)

def seconds (d : Duration) : Nat :=
  d.nanos / Nat.pow 10 9

def subsecond (d : Duration) : Nat :=
  d.nanos % Nat.pow 10 9

/--
The sum, or the greatest span where the sum exceeds it.
-/
def add (a b : Duration) : Duration :=
  ofNanos (a.nanos + b.nanos)

instance : Add Duration := ⟨add⟩

instance : LE Duration := ⟨fun a b => a.nanos ≤ b.nanos⟩

instance (a b : Duration) : Decidable (a ≤ b) := inferInstanceAs (Decidable (a.nanos ≤ b.nanos))

/--
The span of a number of seconds, rounded to the nearest nanosecond, a tie to the even one. A number
below zero or of `2 ^ 64` and more has none, nor has one that is not finite.
-/
def ofSeconds? (x : Float) : Option Duration :=
  match Decimal.magnitude? x with
  | none => none
  | some ⟨0, _⟩ => some zero
  | some ⟨significand, exponent⟩ =>
    if Decimal.signBit x then
      none
    else
      let num := significand * Nat.pow 2 exponent.toNat
      let den := Nat.pow 2 (-exponent).toNat
      if num < Nat.pow 2 64 * den then
        some (ofNanos (Decimal.roundDiv (num * Nat.pow 10 9) den))
      else
        none

/--
The number of seconds: the whole ones and the fraction, each rounded to a double, added as doubles.
-/
def toSeconds (d : Duration) : Float :=
  Decimal.ofInt d.seconds + Decimal.ofInt d.subsecond / 1e9

theorem nanos_add (a b : Duration) : (a + b).nanos = min (a.nanos + b.nanos) limit := rfl

@[ext]
theorem ext {a b : Duration} (h : a.nanos = b.nanos) : a = b := by
  cases a
  cases b
  cases h
  rfl

theorem zero_add (d : Duration) : zero + d = d := by
  have hle := d.nanos_le
  ext
  rw [nanos_add]
  show min (min 0 limit + d.nanos) limit = d.nanos
  omega

theorem add_zero (d : Duration) : d + zero = d := by
  have hle := d.nanos_le
  ext
  rw [nanos_add]
  show min (d.nanos + min 0 limit) limit = d.nanos
  omega

theorem ofNanos_nanos (d : Duration) : ofNanos d.nanos = d := by
  ext
  exact Nat.min_eq_left d.nanos_le

theorem ofNanos_add (m n : Nat) : ofNanos m + ofNanos n = ofNanos (m + n) := by
  ext
  rw [nanos_add]
  show min (min m limit + min n limit) limit = min (m + n) limit
  omega

theorem add_assoc (a b c : Duration) : a + b + c = a + (b + c) := by
  ext
  simp only [nanos_add]
  omega

theorem add_right_comm (a b c : Duration) : a + b + c = a + c + b := by
  ext
  simp only [nanos_add]
  omega

theorem le_add (a b : Duration) : a ≤ a + b := by
  have ha := a.nanos_le
  show a.nanos ≤ (a + b).nanos
  rw [nanos_add]
  omega

theorem nanos_lt_of_ne_greatest {d : Duration} (h : d ≠ .greatest) : d.nanos < limit := by
  have hle := d.nanos_le
  have hne : d.nanos ≠ limit := by
    intro heq
    apply h
    ext
    rw [heq]
    exact (Nat.min_self limit).symm
  omega

end Duration

end Narrative

import Narrative.Text.Blank

/-!
This module contains the decimal numerals of integers: their text, and the reading of the numerals
that fit a 64 bit word.
-/

namespace Narrative.Text

def natural (n : Nat) : List Char :=
  Nat.toDigits 10 n

/--
The numeral of an integer, negative ones with a leading minus.
-/
def integer (n : Int) : List Char :=
  if n < 0 then '-' :: natural n.natAbs else natural n.natAbs

def natural? (cs : List Char) : Option Nat :=
  if !cs.isEmpty && cs.all Char.isDigit then some (Nat.ofDigitChars 10 cs 0) else none

/--
The value of a run of digits behind an optional sign.
-/
def integer? : List Char → Option Int
  | '-' :: digits => (natural? digits).map (fun n => -(n : Int))
  | '+' :: digits => (natural? digits).map Int.ofNat
  | digits => (natural? digits).map Int.ofNat

/--
The signed 64 bit word of an integer that fits one.
-/
def word? (n : Int) : Option Int64 :=
  if -(Nat.pow 2 63 : Int) ≤ n ∧ n < (Nat.pow 2 63 : Int) then some (Int64.ofInt n) else none

/--
Read a signed 64 bit integer: an optional sign, then at least one digit, and nothing else.
-/
def int64? (cs : List Char) : Option Int64 :=
  (integer? cs).bind word?

/--
Read an unsigned 64 bit integer: an optional plus, then at least one digit, and nothing else.
-/
def uint64? (cs : List Char) : Option Nat :=
  let digits :=
    match cs with
    | '+' :: rest => rest
    | _ => cs
  (natural? digits).filter (· < Nat.pow 2 64)

/--
The integer at the front of a text: blanks, an optional sign and digits; what follows the digits is
ignored.
-/
def leadingInteger? (cs : List Char) : Option Int64 :=
  match trimStart cs with
  | [] => none
  | c :: rest =>
    if c == '-' || c == '+' || c.isDigit then
      int64? (c :: rest.takeWhile Char.isDigit)
    else
      none

theorem isDigit_of_mem_natural {n : Nat} {c : Char} (h : c ∈ natural n) : c.isDigit := by
  unfold natural at h
  exact Nat.isDigit_of_mem_toDigits (b := 10) (by decide) (by decide) h

theorem natural?_natural (n : Nat) : natural? (natural n) = some n := by
  have hdigits : (natural n).all Char.isDigit = true := by
    rw [List.all_eq_true]
    intro c hc
    exact isDigit_of_mem_natural hc
  simp [natural?, hdigits]
  simp [natural, Nat.toDigits_ne_nil, Nat.ofDigitChars_ten_toDigits]

theorem word?_toInt (n : Int64) : word? n.toInt = some n := by
  have hlo : -(Nat.pow 2 63 : Int) ≤ n.toInt := n.le_toInt
  have hhi : n.toInt < (Nat.pow 2 63 : Int) := n.toInt_lt
  simp only [word?, and_self, hlo, hhi, ↓reduceIte, Int64.ofInt_toInt]

end Narrative.Text

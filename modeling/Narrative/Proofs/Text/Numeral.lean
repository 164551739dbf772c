import Narrative.Text.Numeral
import Mathlib.Data.List.TakeWhile

/-!
This module contains what a text has to look like for an integer to be read from it: alone, between
blanks, or at the front with anything behind it.
-/

namespace Narrative.Text

def Blank (cs : List Char) : Prop :=
  ∀ c ∈ cs, isBlank c

/--
A run of a class of characters ends in front of the text.
-/
def Stops (p : Char → Bool) (cs : List Char) : Prop :=
  ∀ c ∈ cs.head?, p c = false

theorem stops_nil (p : Char → Bool) : Stops p [] := by
  simp [Stops]

@[simp]
theorem stops_cons {p : Char → Bool} {c : Char} {cs : List Char} :
    Stops p (c :: cs) ↔ p c = false := by
  simp [Stops]

theorem stops_of_forall {p : Char → Bool} {cs : List Char} (h : ∀ c ∈ cs, p c = false) :
    Stops p cs := by
  cases cs with
  | nil => exact stops_nil p
  | cons c cs => exact stops_cons.mpr (h c (by simp))

theorem stops_dropWhile (p : Char → Bool) (cs : List Char) : Stops p (cs.dropWhile p) := by
  intro c hc
  have hnot := List.head?_dropWhile_not p cs
  rw [Option.mem_def.mp hc] at hnot
  exact hnot

theorem takeWhile_of_stops {p : Char → Bool} {run rest : List Char} (hrun : ∀ c ∈ run, p c)
    (hrest : Stops p rest) : (run ++ rest).takeWhile p = run := by
  rw [List.takeWhile_append_of_pos hrun]
  cases rest with
  | nil => simp
  | cons c rest => simp [stops_cons.mp hrest]

theorem dropWhile_of_stops {p : Char → Bool} {run rest : List Char} (hrun : ∀ c ∈ run, p c)
    (hrest : Stops p rest) : (run ++ rest).dropWhile p = rest := by
  rw [List.dropWhile_append_of_pos hrun]
  cases rest with
  | nil => simp
  | cons c rest => simp [stops_cons.mp hrest]

/--
Where a run of a class of characters ends is decided by the text.
-/
theorem append_inj_of_stops {p : Char → Bool} {run rest other rest' : List Char} (hrun : ∀ c ∈ run, p c)
    (hrest : Stops p rest) (hother : ∀ c ∈ other, p c) (hrest' : Stops p rest')
    (h : run ++ rest = other ++ rest') : run = other ∧ rest = rest' := by
  constructor
  · rw [← takeWhile_of_stops hrun hrest, h, takeWhile_of_stops hother hrest']
  · rw [← dropWhile_of_stops hrun hrest, h, dropWhile_of_stops hother hrest']

theorem stops_append {p : Char → Bool} {front rest : List Char} (hfront : ∀ c ∈ front, p c = false)
    (hrest : Stops p rest) : Stops p (front ++ rest) := by
  cases front with
  | nil => exact hrest
  | cons c front => exact stops_cons.mpr (hfront c (by simp))

/--
At least one digit, and the number that the digits are in base ten.
-/
def IsNatural (cs : List Char) (n : Nat) : Prop :=
  cs ≠ [] ∧ (∀ c ∈ cs, c.isDigit) ∧ n = Nat.ofDigitChars 10 cs 0

/--
The spelling of an integer: digits, behind a minus where it is negated.
-/
inductive IsInteger : List Char → Int → Prop where
  | plain {cs : List Char} {n : Nat} (h : IsNatural cs n) : IsInteger cs n
  | negated {cs : List Char} {n : Nat} (h : IsNatural cs n) : IsInteger ('-' :: cs) (-n)

/--
The spelling of an integer that may also stand behind a plus.
-/
inductive IsSigned : List Char → Int → Prop where
  | integer {cs : List Char} {n : Int} (h : IsInteger cs n) : IsSigned cs n
  | plus {cs : List Char} {n : Nat} (h : IsNatural cs n) : IsSigned ('+' :: cs) n

theorem natural?_eq_some {cs : List Char} {n : Nat} : natural? cs = some n ↔ IsNatural cs n := by
  have hdigits : (!cs.isEmpty && cs.all Char.isDigit) ↔ cs ≠ [] ∧ ∀ c ∈ cs, c.isDigit := by simp
  unfold natural? IsNatural
  rw [Option.ite_none_right_eq_some, hdigits, Option.some.injEq, and_assoc, eq_comm (a := n)]

theorem IsNatural.exists_cons {cs : List Char} {n : Nat} (h : IsNatural cs n) :
    ∃ c rest, cs = c :: rest ∧ c.isDigit := by
  obtain ⟨hne, hdigits, -⟩ := h
  cases cs with
  | nil => exact absurd rfl hne
  | cons c rest => exact ⟨c, rest, rfl, hdigits c (by simp)⟩

theorem IsSigned.exists_cons {cs : List Char} {n : Int} (h : IsSigned cs n) :
    ∃ c digits, cs = c :: digits ∧ (c = '-' ∨ c = '+' ∨ c.isDigit) ∧ ∀ d ∈ digits, d.isDigit := by
  cases h with
  | integer h =>
    cases h with
    | plain h =>
      obtain ⟨c, digits, rfl, hc⟩ := h.exists_cons
      exact ⟨c, digits, rfl, .inr (.inr hc), fun d hd => h.2.1 d (List.mem_cons_of_mem c hd)⟩
    | negated h => exact ⟨'-', _, rfl, .inl rfl, h.2.1⟩
  | plus h => exact ⟨'+', _, rfl, .inr (.inl rfl), h.2.1⟩

theorem integer?_eq_some {cs : List Char} {n : Int} : integer? cs = some n ↔ IsSigned cs n := by
  constructor
  · intro h
    unfold integer? at h
    split at h
    · obtain ⟨_, hcast, rfl⟩ := Option.map_eq_some_iff.mp h
      obtain ⟨m, hm, hcast⟩ := Option.bind_eq_some_iff.mp hcast
      cases hcast
      exact .integer (.negated (natural?_eq_some.mp hm))
    · obtain ⟨m, hm, rfl⟩ := Option.map_eq_some_iff.mp h
      exact .plus (natural?_eq_some.mp hm)
    · obtain ⟨m, hm, rfl⟩ := Option.map_eq_some_iff.mp h
      exact .integer (.plain (natural?_eq_some.mp hm))
  · intro h
    cases h with
    | integer h =>
      cases h with
      | plain h =>
        obtain ⟨c, rest, rfl, hc⟩ := h.exists_cons
        have hminus : c ≠ '-' := by rintro rfl; exact absurd hc (by decide)
        have hplus : c ≠ '+' := by rintro rfl; exact absurd hc (by decide)
        simp [integer?, hminus, hplus, natural?_eq_some.mpr h]
      | negated h => simp [integer?, natural?_eq_some.mpr h]
    | plus h => simp [integer?, natural?_eq_some.mpr h]

theorem word?_eq_some {n : Int} {w : Int64} : word? n = some w ↔ n = w.toInt := by
  constructor
  · intro h
    unfold word? at h
    split at h
    · next hfits =>
      cases h
      exact (Int64.toInt_ofInt_of_le hfits.1 hfits.2).symm
    · cases h
  · rintro rfl
    exact word?_toInt w

theorem int64?_eq_some {cs : List Char} {n : Int64} :
    int64? cs = some n ↔ IsSigned cs n.toInt := by
  simp [int64?, Option.bind_eq_some_iff, integer?_eq_some, word?_eq_some]

theorem char_le_iff {a b : Char} : a ≤ b ↔ a.toNat ≤ b.toNat := Iff.rfl

theorem isBlank_eq_false_of_toNat {c : Char} (hlo : 32 < c.toNat) (hhi : c.toNat < 127) :
    isBlank c = false := by
  simp only [isBlank, Bool.or_eq_false_iff, Bool.and_eq_false_iff, decide_eq_false_iff_not,
    beq_eq_false_iff_ne, char_le_iff, ne_eq, ← Char.toNat_inj, Char.reduceToNat]
  omega

theorem isBlank_eq_false_of_isDigit {c : Char} (h : c.isDigit) : isBlank c = false := by
  simp only [Char.isDigit_iff_toNat, Char.reduceToNat] at h
  apply isBlank_eq_false_of_toNat <;> omega

theorem isBlank_eq_false_of_mem {cs : List Char} {n : Int} (h : IsSigned cs n) :
    ∀ c ∈ cs, isBlank c = false := by
  obtain ⟨c, digits, rfl, hc, hdigits⟩ := h.exists_cons
  intro d hd
  cases hd with
  | head =>
    rcases hc with rfl | rfl | hc
    · decide
    · decide
    · exact isBlank_eq_false_of_isDigit hc
  | tail _ hd => exact isBlank_eq_false_of_isDigit (hdigits d hd)

theorem trimStart_blank_append {front rest : List Char} (hfront : Blank front) :
    trimStart (front ++ rest) = trimStart rest :=
  List.dropWhile_append_of_pos hfront

theorem trimStart_of_stops {cs : List Char} (h : Stops isBlank cs) : trimStart cs = cs := by
  cases cs with
  | nil => rfl
  | cons c cs => exact List.dropWhile_cons_of_neg (by simp [stops_cons.mp h])

theorem trimEnd_append_blank {rest back : List Char} (hback : Blank back) :
    trimEnd (rest ++ back) = trimEnd rest := by
  unfold trimEnd
  rw [List.reverse_append, trimStart_blank_append]
  intro c hc
  exact hback c (List.mem_reverse.mp hc)

theorem trim_padded {front core back : List Char} (hfront : Blank front)
    (hcore : ∀ c ∈ core, isBlank c = false) (hback : Blank back) :
    trim (front ++ core ++ back) = core := by
  have hrev : Stops isBlank core.reverse :=
    stops_of_forall (fun c hc => hcore c (List.mem_reverse.mp hc))
  unfold trim
  rw [List.append_assoc, trimStart_blank_append hfront]
  cases core with
  | nil => simp [trimStart, trimEnd, List.dropWhile_eq_nil_iff.mpr hback]
  | cons c core =>
    rw [trimStart_of_stops (by simpa using hcore c (by simp)), trimEnd_append_blank hback, trimEnd,
      trimStart_of_stops hrev, List.reverse_reverse]

theorem exists_trimStart (cs : List Char) : ∃ front, Blank front ∧ cs = front ++ trimStart cs :=
  ⟨cs.takeWhile isBlank, fun _ hc => List.mem_takeWhile_imp hc,
    List.takeWhile_append_dropWhile.symm⟩

theorem exists_trim (cs : List Char) :
    ∃ front back, Blank front ∧ Blank back ∧ cs = front ++ trim cs ++ back := by
  obtain ⟨front, hfront, hcs⟩ := exists_trimStart cs
  obtain ⟨back, hback, hrest⟩ := exists_trimStart (trimStart cs).reverse
  refine ⟨front, back.reverse, hfront, fun c hc => hback c (List.mem_reverse.mp hc), ?_⟩
  have hstart : trimStart cs = trim cs ++ back.reverse := by
    rw [← List.reverse_reverse (trimStart cs), hrest, List.reverse_append]
    rfl
  rw [List.append_assoc, ← hstart]
  exact hcs

theorem trim_eq_nil_iff {cs : List Char} : trim cs = [] ↔ Blank cs := by
  constructor
  · intro h
    obtain ⟨front, back, hfront, hback, hcs⟩ := exists_trim cs
    rw [h, List.append_nil] at hcs
    intro c hc
    rw [hcs] at hc
    exact (List.mem_append.mp hc).elim (hfront c) (hback c)
  · intro h
    simp [trim, trimEnd, trimStart, List.dropWhile_eq_nil_iff.mpr h]

/--
A text that is an integer between blanks.
-/
def StatesInteger (cs : List Char) (n : Int) : Prop :=
  ∃ front core back, Blank front ∧ IsSigned core n ∧ Blank back ∧ cs = front ++ core ++ back

/--
A text with an integer at its front, behind blanks and before anything but a digit.
-/
def LeadsWith (cs : List Char) (n : Int) : Prop :=
  ∃ front core rest, Blank front ∧ IsSigned core n ∧ Stops Char.isDigit rest ∧
    cs = front ++ core ++ rest

theorem int64?_trim_eq_some {cs : List Char} {n : Int64} :
    int64? (trim cs) = some n ↔ StatesInteger cs n.toInt := by
  rw [int64?_eq_some]
  constructor
  · intro h
    obtain ⟨front, back, hfront, hback, hcs⟩ := exists_trim cs
    exact ⟨front, trim cs, back, hfront, h, hback, hcs⟩
  · rintro ⟨front, core, back, hfront, h, hback, rfl⟩
    rw [trim_padded hfront (isBlank_eq_false_of_mem h) hback]
    exact h

theorem leadingInteger?_eq_some {cs : List Char} {n : Int64} :
    leadingInteger? cs = some n ↔ LeadsWith cs n.toInt := by
  constructor
  · intro h
    obtain ⟨front, hfront, hcs⟩ := exists_trimStart cs
    unfold leadingInteger? at h
    split at h
    · cases h
    · next c rest hstart =>
      split at h
      · refine ⟨front, c :: rest.takeWhile Char.isDigit, rest.dropWhile Char.isDigit, hfront,
          int64?_eq_some.mp h, stops_dropWhile _ _, ?_⟩
        rw [List.append_assoc, List.cons_append, List.takeWhile_append_dropWhile, ← hstart]
        exact hcs
      · cases h
  · rintro ⟨front, core, rest, hfront, h, hrest, rfl⟩
    have hblank := isBlank_eq_false_of_mem h
    obtain ⟨c, digits, rfl, hc, hdigits⟩ := h.exists_cons
    have hstart : trimStart (front ++ (c :: digits) ++ rest) = c :: (digits ++ rest) := by
      rw [List.append_assoc, trimStart_blank_append hfront]
      exact trimStart_of_stops (by simpa using hblank c (by simp))
    have hfirst : (c == '-' || c == '+' || c.isDigit) = true := by simpa [or_assoc] using hc
    unfold leadingInteger?
    rw [hstart]
    simp only [hfirst, if_true, takeWhile_of_stops hdigits hrest]
    exact int64?_eq_some.mpr h

end Narrative.Text

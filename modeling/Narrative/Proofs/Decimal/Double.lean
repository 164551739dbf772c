import Mathlib
import Narrative.Decimal.Binary64

/-!
This module contains laws of doubles: which of them cannot be compared, which products are no number, and what the
double of a 64 bit integer can be.
-/

namespace Narrative.Decimal

open Float.Model.UnpackedFloat

section

variable {f : Float.Model.Format} {b : BitVec f.numBits} {x y : Float.Model.UnpackedFloat}

theorem compare_eq_none_iff : x.compare y = none ↔ x = .notANumber ∨ y = .notANumber := by
  fun_cases Float.Model.UnpackedFloat.compare x y <;> simp_all

theorem swap_compare (x y : Float.Model.UnpackedFloat) : (x.compare y).map Ordering.swap = y.compare x := by
  have hsign (s t : Sign) : (compare s t).swap = compare t s := by cases s <;> cases t <;> rfl
  have hexponent (e e' : Int) : (compare e e').swap = compare e' e := Std.OrientedOrd.eq_swap.symm
  have hmantissa (m m' : Nat) : (compare m m').swap = compare m' m := Std.OrientedOrd.eq_swap.symm
  fun_cases Float.Model.UnpackedFloat.compare x y with
  | case1 => cases y <;> rfl
  | case2 => cases x <;> rfl
  | _ => simp_all [Float.Model.UnpackedFloat.compare, Ordering.swap_then]

theorem unpack_eq_notANumber_iff :
    unpack f b = .notANumber ↔ unpackExponent b = -1#_ ∧ unpackMantissa b ≠ 0#_ := by
  fun_cases unpack f b <;> simp_all +zetaDelta

/--
Only what is no number is packed as no number. What is too large becomes an infinity.
-/
theorem unpack_pack_eq_notANumber_iff : unpack f (x.pack f) = .notANumber ↔ x = .notANumber := by
  have hbits := f.he
  cases x with
  | notANumber => exact iff_of_true unpack_packedNaN rfl
  | infinity | zero => simp [unpack_eq_notANumber_iff, pack, packedInfinity, packedZero]
  | finite s m e hpos =>
    refine iff_of_false ?_ nofun
    rw [unpack_eq_notANumber_iff]
    rintro ⟨hexponent, hmantissa⟩
    unfold pack at hexponent hmantissa
    dsimp only at hexponent hmantissa
    split at hexponent
    · next hlarge =>
      rw [if_pos hlarge] at hmantissa
      simp [packedInfinity] at hmantissa
    · next hlarge =>
      split at hexponent
      · rw [unpackExponent_packComponents] at hexponent
        have hfield := congrArg BitVec.toNat hexponent
        rw [BitVec.neg_one_eq_allOnes, BitVec.toNat_allOnes, BitVec.toNat_ofNat, Nat.mod_eq_of_lt (by omega)] at hfield
        omega
      · rw [unpackExponent_packComponents, BitVec.zero_eq_neg_one_iff] at hexponent
        omega

theorem unpack_pack_unpack (b : BitVec f.numBits) (h : 2 ≤ f.exponentBits) :
    unpack f ((unpack f b).pack f) = unpack f b := by
  rw [pack_unpack b h]
  split
  · next hb =>
    simp only [isNaNBits, decide_eq_true_eq] at hb
    rw [unpack_packedNaN, unpack_eq_notANumber_iff.mpr hb]
  · rfl

theorem exists_unpack_eq_neg (b : BitVec f.numBits) : ∃ c, unpack f c = (unpack f b).neg := by
  refine ⟨packComponents f (-Sign.ofBitVec (unpackSign b)) (unpackExponent b) (unpackMantissa b), ?_⟩
  unfold unpack
  simp only [unpackExponent_packComponents, unpackMantissa_packComponents, unpackSign_packComponents,
    Sign.ofBitVec_toBitVec]
  split_ifs <;> rfl

theorem mul_eq_notANumber_iff : x.mul f y = .notANumber ↔
    x = .notANumber ∨ y = .notANumber ∨ (x.isInf ∧ ∃ s, y = .zero s) ∨ ((∃ s, x = .zero s) ∧ y.isInf) := by
  have hround s m e : roundWithAccuracy f s m e .exact ≠ .notANumber := by
    unfold roundWithAccuracy
    dsimp only
    split_ifs <;> simp
  fun_cases Float.Model.UnpackedFloat.mul f x y <;> simp_all [isInf]

end

section

variable {x y : Float}

theorem unpack_eq_unpack_iff : x.toModel.unpack = y.toModel.unpack ↔ x = y := by
  rw [← Float.toBits_inj, ← UInt64.toBitVec_inj]
  exact unpack_inj_of_valid x.toModel.valid y.toModel.valid

theorem eq_nan_iff : x = .nan ↔ x.toModel.unpack = .notANumber := by
  rw [← unpack_eq_unpack_iff]
  rfl

theorem eq_inf_iff : x = .inf ↔ x.toModel.unpack = .infinity .positive := by
  rw [← unpack_eq_unpack_iff]
  rfl

theorem le_iff : x ≤ y ↔ x.toModel.unpack.le y.toModel.unpack :=
  decide_eq_true_iff

theorem lt_iff : x < y ↔ x.toModel.unpack.lt y.toModel.unpack :=
  decide_eq_true_iff

/--
One double is at most another, unless it is greater or one of them is no number.
-/
theorem not_le_iff : ¬x ≤ y ↔ y < x ∨ x = .nan ∨ y = .nan := by
  rw [le_iff, lt_iff, eq_nan_iff, eq_nan_iff, ← compare_eq_none_iff, Float.Model.UnpackedFloat.le,
    Float.Model.UnpackedFloat.lt, ← swap_compare]
  cases y.toModel.unpack.compare x.toModel.unpack with
  | none => simp
  | some order => cases order <;> simp

theorem unpack_ofBits (bits : UInt64) : (Float.ofBits bits).toModel.unpack = unpack .binary64 bits.toBitVec :=
  unpack_pack_unpack (f := .binary64) bits.toBitVec (by decide)

theorem unpack_neg (x : Float) : (-x).toModel.unpack = x.toModel.unpack.neg := by
  obtain ⟨c, hc⟩ := exists_unpack_eq_neg (f := .binary64) x.toModel.toBits.toBitVec
  have hneg : x.toModel.unpack.neg = unpack .binary64 c := hc.symm
  rw [hneg]
  show unpack .binary64 (x.toModel.unpack.neg.pack .binary64) = _
  rw [hneg, unpack_pack_unpack c (by decide)]

theorem mul_eq_nan_iff : x * y = .nan ↔ x = .nan ∨ y = .nan ∨
    (x.isInf ∧ ∃ s, y.toModel.unpack = .zero s) ∨ ((∃ s, x.toModel.unpack = .zero s) ∧ y.isInf) := by
  rw [eq_nan_iff, eq_nan_iff, eq_nan_iff]
  exact unpack_pack_eq_notANumber_iff.trans mul_eq_notANumber_iff

end

theorem exists_unpack_eq_finite {bits : Nat} (hleast : 2 ^ 52 ≤ bits) (hgreatest : bits < 2047 * 2 ^ 52) :
    ∃ s m e hpos, (Float.ofBits (UInt64.ofNat bits)).toModel.unpack = .finite s m e hpos := by
  have hexponent : (@unpackExponent .binary64 (UInt64.ofNat bits).toBitVec).toNat = bits / 2 ^ 52 := by
    rw [unpackExponent_def, BitVec.extractLsb'_toNat, UInt64.toNat_toBitVec, UInt64.toNat_ofNat',
      Nat.shiftRight_eq_div_pow]
    show bits % 2 ^ 64 / 2 ^ 52 % 2 ^ 11 = bits / 2 ^ 52
    omega
  have hinfinite : @unpackExponent .binary64 (UInt64.ofNat bits).toBitVec ≠ -1#_ := by
    intro h
    rw [h] at hexponent
    change 2047 = bits / 2 ^ 52 at hexponent
    omega
  have hzero : @unpackExponent .binary64 (UInt64.ofNat bits).toBitVec ≠ 0#_ := by
    intro h
    rw [h] at hexponent
    change 0 = bits / 2 ^ 52 at hexponent
    omega
  rw [unpack_ofBits]
  fun_cases unpack .binary64 (UInt64.ofNat bits).toBitVec with
  | case5 => exact ⟨_, _, _, _, rfl⟩
  | _ => simp_all +zetaDelta

theorem roundDiv_le (num den : Nat) : roundDiv num den ≤ num / den + 1 := by
  unfold roundDiv
  dsimp only
  split <;> omega

/--
Where the exponent is one of the two that rounding chooses from, the significand has at most 54 bits.
-/
theorem exists_unpack_rounded_eq_finite {k : Nat} {exponent : Int} (hlt : k.log2 < 64)
    (hleast : k.log2 - 53 ≤ exponent) (hgreatest : exponent ≤ k.log2 - 52) :
    ∃ s m e hm, (Float.ofBits (UInt64.ofNat (min ((exponent + 1074).toNat * 2 ^ 52 +
      roundDiv (k * 2 ^ (-exponent).toNat) (1 * 2 ^ exponent.toNat)) (2047 * 2 ^ 52)))).toModel.unpack =
        .finite s m e hm := by
  have hquotient : k * 2 ^ (-exponent).toNat / (1 * 2 ^ exponent.toNat) < 2 ^ 54 := by
    apply Nat.div_lt_of_lt_mul
    calc k * 2 ^ (-exponent).toNat
      _ < 2 ^ (k.log2 + 1) * 2 ^ (-exponent).toNat := Nat.mul_lt_mul_of_pos_right Nat.lt_log2_self (Nat.two_pow_pos _)
      _ = 2 ^ (k.log2 + 1 + (-exponent).toNat) := (Nat.pow_add _ _ _).symm
      _ ≤ 2 ^ (exponent.toNat + 54) := Nat.pow_le_pow_right (by decide) (by omega)
      _ = 1 * 2 ^ exponent.toNat * 2 ^ 54 := by rw [Nat.pow_add, Nat.one_mul]
  have hround := roundDiv_le (k * 2 ^ (-exponent).toNat) (1 * 2 ^ exponent.toNat)
  apply exists_unpack_eq_finite
  · omega
  · omega

theorem exists_unpack_nearest_eq_finite {k : Nat} (hpos : 0 < k) (hlt : k < 2 ^ 64) :
    ∃ s m e hm, (nearest k 1).toModel.unpack = .finite s m e hm := by
  have hlog : k.log2 < 64 := (Nat.log2_lt (Nat.ne_of_gt hpos)).mpr hlt
  have hone : Nat.log2 1 = 0 := by decide
  unfold nearest
  rw [if_neg (Nat.ne_of_gt hpos)]
  dsimp only
  rw [hone]
  apply exists_unpack_rounded_eq_finite hlog
  · split <;> omega
  · split <;> omega

theorem unpack_ofInt_zero : (ofInt 0).toModel.unpack = .zero .positive :=
  unpack_ofBits 0

theorem exists_unpack_ofInt_eq_finite {n : Int} (hn : n ≠ 0) (hlt : n.natAbs < 2 ^ 64) :
    ∃ s m e hm, (ofInt n).toModel.unpack = .finite s m e hm := by
  obtain ⟨s, m, e, hm, hfinite⟩ := exists_unpack_nearest_eq_finite (Int.natAbs_pos.mpr hn) hlt
  unfold ofInt
  split
  · rw [unpack_neg, hfinite]
    exact ⟨_, m, e, hm, rfl⟩
  · exact ⟨s, m, e, hm, hfinite⟩

/--
A product with an integer is no number only where it is infinity times zero, or no number was multiplied.
-/
theorem mul_ofInt_eq_nan_iff (x : Float) (n : Int64) :
    x * ofInt n.toInt = .nan ↔ x = .nan ∨ (x.isInf ∧ n = 0) := by
  rw [mul_eq_nan_iff, eq_nan_iff (x := ofInt n.toInt)]
  by_cases hn : n = 0
  · rw [hn, Int64.toInt_zero, unpack_ofInt_zero]
    simp [Float.isInf, Float.Model.isInf, unpack_ofInt_zero, isInf]
  · have hlt : n.toInt.natAbs < 2 ^ 64 := by
      have hleast := n.le_toInt
      have hgreatest := n.toInt_lt
      omega
    have hnonzero : n.toInt ≠ 0 := fun h => hn (Int64.toInt_inj.mp h)
    obtain ⟨s, m, e, hm, hfinite⟩ := exists_unpack_ofInt_eq_finite hnonzero hlt
    simp [Float.isInf, Float.Model.isInf, hfinite, isInf, hn]

theorem eq_inf_of_isInf {x : Float} (hinf : x.isInf) (hx : ¬x < 0) : x = .inf := by
  have hzero : (0 : Float).toModel.unpack = .zero .positive := rfl
  change x.toModel.unpack.isInf at hinf
  rw [lt_iff, hzero] at hx
  rw [eq_inf_iff]
  cases hunpack : x.toModel.unpack with
  | infinity s =>
    rw [hunpack] at hx
    cases s with
    | positive => rfl
    | negative => exact absurd rfl hx
  | _ => simp [hunpack, isInf] at hinf

end Narrative.Decimal

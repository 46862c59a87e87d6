import Concordance.Number.Exact
import Concordance.Proofs.Number.Positive

namespace Concordance

open Float.Model (Format totalExponent UnpackedFloat)
open Float.Model.UnpackedFloat

def Exact.ofUnpacked? : UnpackedFloat → Option Exact
  | .finite sign m e _ => some ⟨sign == .negative, m, e⟩
  | .zero sign => some ⟨sign == .negative, 0, -1074⟩
  | .infinity _ => none
  | .notANumber => none

theorem toNat_leading (fraction : BitVec 52) :
    (1#1 ++ fraction).toNat = 0x10000000000000 + fraction.toNat := by
  rw [BitVec.toNat_append, Nat.shiftLeft_eq, Nat.mul_comm,
    ← Nat.two_pow_add_eq_or_of_lt fraction.isLt]
  rfl

section Unpack

variable (b : BitVec 64)

theorem toNat_unpackMantissa :
    (@unpackMantissa Format.binary64 b).toNat = b.toNat % 0x10000000000000 := by
  simp [unpackMantissa]

theorem toNat_unpackExponent :
    (@unpackExponent Format.binary64 b).toNat = b.toNat / 0x10000000000000 % 0x800 := by
  simp [unpackExponent, Nat.shiftRight_eq_div_pow]

theorem toNat_unpackSign :
    (@unpackSign Format.binary64 b).toNat = b.toNat / 0x8000000000000000 % 2 := by
  simp [unpackSign, Nat.shiftRight_eq_div_pow]

theorem ofBitVec_beq_negative : ∀ sign : BitVec 1,
    (Sign.ofBitVec sign == .negative) = (sign.toNat == 1) := by
  decide

theorem Exact.ofBits?_eq :
    ofBits? b.toNat = ofUnpacked? (UnpackedFloat.unpack Format.binary64 b) := by
  have hm := toNat_unpackMantissa b
  have he := toNat_unpackExponent b
  have hs := toNat_unpackSign b
  have hsign := ofBitVec_beq_negative (@unpackSign Format.binary64 b)
  have hbias : (Format.binary64.exponentBias : Int) + (52 : Nat) = 1075 := rfl
  have htop : @unpackExponent Format.binary64 b = -1#11 ↔
      (@unpackExponent Format.binary64 b).toNat = 2047 :=
    ⟨fun h => congrArg BitVec.toNat h, fun h => BitVec.eq_of_toNat_eq h⟩
  have hzero : @unpackExponent Format.binary64 b = 0#11 ↔
      (@unpackExponent Format.binary64 b).toNat = 0 :=
    ⟨fun h => congrArg BitVec.toNat h, fun h => BitVec.eq_of_toNat_eq h⟩
  unfold ofBits? UnpackedFloat.unpack
  simp only [← he, ← hm, ← hs, ← hsign, hbias, htop, hzero, beq_iff_eq]
  split
  · split <;> rfl
  · split
    next hz =>
      split
      next hnone =>
        rw [hnone]
        rfl
      next =>
        rw [hz]
        rfl
    next =>
      have hlead := toNat_leading (@unpackMantissa Format.binary64 b)
      rw [ofUnpacked?, hlead]

end Unpack

theorem Exact.ofFloat?_eq (x : Float) : ofFloat? x = ofUnpacked? x.toModel.unpack :=
  ofBits?_eq x.toModel.toBits.toBitVec

section Normal

variable {m : Nat} {e : Int}

theorem stored_finite {sign : Sign} {h : 0 < m} (hl : m.log2 = 52) (he : -1074 ≤ e)
    (hu : e ≤ 971) : stored (.finite sign m e h) = .finite sign m e h := by
  obtain ⟨hlow, hhigh⟩ := (Nat.log2_eq_iff (Nat.ne_of_gt h)).1 hl
  have hb := add_exponentBias e
  have hbias : (Format.binary64.exponentBias : Int) + (52 : Nat) = 1075 := rfl
  have hexp : (BitVec.ofNat 11 (e + 1075).toNat).toNat = (e + 1075).toNat := by
    rw [BitVec.toNat_ofNat]
    omega
  have htop : ¬ BitVec.ofNat 11 (e + 1075).toNat = -1#11 := fun hx => by
    have hx := congrArg BitVec.toNat hx
    rw [hexp, show (-1#11).toNat = 2047 from rfl] at hx
    omega
  have hzero : ¬ BitVec.ofNat 11 (e + 1075).toNat = 0#11 := fun hx => by
    have hx := congrArg BitVec.toNat hx
    rw [hexp, show (0#11).toNat = 0 from rfl] at hx
    omega
  have hlead : (1#1 ++ BitVec.ofNat 52 m).toNat = m := by
    rw [toNat_leading, BitVec.toNat_ofNat]
    omega
  have hsign : Sign.ofBitVec sign.toBitVec = sign := by cases sign <;> rfl
  have hfits : ¬ 2 ^ 11 ≤ (e + 1075).toNat + 1 := by omega
  have hdigits : m.log2 + 1 = Format.binary64.mantissaBits := by rw [hl]; rfl
  unfold stored pack
  simp only [hb, if_neg hfits, if_pos hdigits]
  unfold UnpackedFloat.unpack
  simp only [unpackExponent_packComponents, unpackMantissa_packComponents,
    unpackSign_packComponents, if_neg htop, if_neg hzero, hsign, hlead, hbias, hexp]
  congr 1
  omega

theorem shiftRight_exact (m k : Nat) :
    (ExtendedMantissa.mk (m * 2 ^ k) false false) >>> k = ⟨m, false, false⟩ := by
  show k.repeat ExtendedMantissa.shiftRightOne ⟨m * 2 ^ k, false, false⟩ = _
  induction k generalizing m with
  | zero => simp [Nat.repeat]
  | succ k ih =>
    have hm : m * 2 ^ (k + 1) = 2 * m * 2 ^ k := by rw [Nat.pow_succ]; ring
    show (k.repeat ExtendedMantissa.shiftRightOne _).shiftRightOne = _
    rw [hm, ih, ExtendedMantissa.shiftRightOne]
    simp

theorem shiftToTargetExponent_exact (hm : 0 < m) (hl : m.log2 = 52) (k : Nat)
    (he : -1074 ≤ e + k) :
    shiftToTargetExponent Format.binary64 (m * 2 ^ k) e .exact = (⟨m, false, false⟩, e + k) := by
  have ht : Format.binary64.targetExponent (totalExponent (m * 2 ^ k) e) = e + k := by
    show max (((m * 2 ^ k).log2 : Int) + 1 + e - 53) (-1074) = e + k
    rw [log2_mul_two_pow hm, hl]
    omega
  have hk : (e + k - e).toNat = k := by omega
  unfold shiftToTargetExponent shiftToExponent
  simp only [ht, hk]
  exact congrArg (·, e + (k : Int)) (shiftRight_exact m k)

theorem roundWithAccuracy_exact (sign : Sign) (hm : 0 < m) (hl : m.log2 = 52) (k : Nat)
    (he : -1074 ≤ e + k) :
    roundWithAccuracy Format.binary64 sign (m * 2 ^ k) e .exact = .finite sign m (e + k) hm := by
  have hagain := shiftToTargetExponent_exact (e := e + k) hm hl 0 (by omega)
  rw [Nat.pow_zero, Nat.mul_one] at hagain
  have hround : (ExtendedMantissa.mk m false false).roundedMantissa = m := rfl
  unfold roundWithAccuracy
  simp only [shiftToTargetExponent_exact hm hl k he, hround, hagain, dif_neg (Nat.ne_of_gt hm)]
  congr 1
  omega

end Normal

def zerosAfter (n : Nat) : Nat := 52 - n.log2

section Whole

variable {n : Nat}

theorem mantissa_pos (hn : 0 < n) : 0 < n * 2 ^ zerosAfter n :=
  Nat.mul_pos hn (Nat.two_pow_pos _)

theorem log2_mantissa (hn : 0 < n) (hs : n < 2 ^ 53) : (n * 2 ^ zerosAfter n).log2 = 52 := by
  have hlog : n.log2 < 53 := (Nat.log2_lt (Nat.ne_of_gt hn)).2 hs
  rw [log2_mul_two_pow hn, zerosAfter]
  omega

/-- The double of a whole number of at most 53 digits: filled up to 53 digits. -/
def wholeDouble (sign : Sign) (n : Nat) (hn : 0 < n) : UnpackedFloat :=
  .finite sign (n * 2 ^ zerosAfter n) (-(zerosAfter n : Int)) (mantissa_pos hn)

theorem stored_wholeDouble (sign : Sign) (hn : 0 < n) (hs : n < 2 ^ 53) :
    stored (wholeDouble sign n hn) = wholeDouble sign n hn :=
  have hz : zerosAfter n ≤ 52 := Nat.sub_le ..
  stored_finite (log2_mantissa hn hs) (by omega) (by omega)

theorem normalize_whole (hn : 0 < n) (hs : n < 2 ^ 53) (zeroSign : Sign) :
    UnpackedFloat.normalize Format.binary64 n 0 zeroSign = wholeDouble .positive n hn := by
  have hc : compare (n : Int) 0 = .gt := Int.compare_eq_gt.2 (by omega)
  have hlog : n.log2 < 53 := (Nat.log2_lt (Nat.ne_of_gt hn)).2 hs
  have hz : zerosAfter n = 52 - n.log2 := rfl
  have ht : ((0 : Int) - Format.binary64.targetExponent (totalExponent n 0)).toNat =
      zerosAfter n := by
    show (0 - max ((n.log2 : Int) + 1 + 0 - 53) (-1074)).toNat = zerosAfter n
    omega
  have hround := roundWithAccuracy_exact (e := 0 - (zerosAfter n : Int)) .positive
    (mantissa_pos hn) (log2_mantissa hn hs) 0 (by omega)
  rw [Nat.pow_zero, Nat.mul_one] at hround
  unfold UnpackedFloat.normalize
  rw [hc]
  show UnpackedFloat.round Format.binary64 .positive n 0 = _
  unfold UnpackedFloat.round decreaseExponent
  simp only [Nat.shiftLeft_eq, ht, hround, wholeDouble]
  congr 1
  omega

theorem unpack_ofNat (hn : 0 < n) (hs : n < 2 ^ 53) :
    (Float.ofNat n).toModel.unpack = wholeDouble .positive n hn := by
  have hone : (Float.ofBits 0x3FF0000000000000).toModel.unpack =
      .finite .positive (2 ^ 52) (-52) (by decide) := rfl
  have hw : n.toUInt64.toNat = n := by
    simp only [Nat.toUInt64, UInt64.toNat_ofNat']
    omega
  have hconv : n.toUInt64.toFloat.toModel.unpack = wholeDouble .positive n hn := by
    show stored (UnpackedFloat.normalize Format.binary64 (n.toUInt64.toNat : Int) 0 .positive) = _
    rw [hw, normalize_whole hn hs, stored_wholeDouble .positive hn hs]
  have hz : zerosAfter n ≤ 52 := Nat.sub_le ..
  show (Float.ofScientific n false 0).toModel.unpack = _
  unfold Float.ofScientific
  rw [dif_pos ⟨hs, by decide⟩]
  show stored (UnpackedFloat.mul Format.binary64 n.toUInt64.toFloat.toModel.unpack
    (Float.ofBits 0x3FF0000000000000).toModel.unpack) = _
  rw [hone, hconv]
  have hround := roundWithAccuracy_exact (e := -(zerosAfter n : Int) + -52) .positive
    (mantissa_pos hn) (log2_mantissa hn hs) 52 (by omega)
  show stored (roundWithAccuracy Format.binary64 .positive _ _ .exact) = _
  rw [hround]
  have he : -(zerosAfter n : Int) + -52 + (52 : Nat) = -(zerosAfter n : Int) := by omega
  rw [← stored_wholeDouble .positive hn hs, wholeDouble]
  simp only [he]

theorem unpack_ofInt_neg (hn : 0 < n) (hs : n < 2 ^ 53) :
    (Float.ofInt (-(n : Int))).toModel.unpack = wholeDouble .negative n hn := by
  obtain ⟨k, rfl⟩ := Nat.exists_eq_add_one.2 hn
  show stored (Float.ofNat (k + 1)).toModel.unpack.neg = _
  rw [unpack_ofNat hn hs]
  exact stored_wholeDouble .negative hn hs

theorem unpack_ofInt_zero : (Float.ofInt 0).toModel.unpack = .zero .positive := rfl

theorem unpack_sub_self {n : Int} (hs : n.natAbs < 2 ^ 53) :
    (Float.ofInt n - Float.ofInt n).toModel.unpack = .zero .positive := by
  have hfinite : ∀ {x : Float} {sign m e h}, x.toModel.unpack = .finite sign m e h →
      (x - x).toModel.unpack = .zero .positive := by
    intro x sign m e h hx
    show stored (UnpackedFloat.sub Format.binary64 x.toModel.unpack x.toModel.unpack) = _
    rw [hx]
    simp only [UnpackedFloat.sub, Int.sub_self, UnpackedFloat.normalize, Std.ReflCmp.compare_self]
    rfl
  obtain h | h | h := Int.lt_trichotomy n 0
  · have hn : n = -(n.natAbs : Int) := by omega
    have hunpack := unpack_ofInt_neg (Int.natAbs_pos.2 (Int.ne_of_lt h)) hs
    rw [← hn] at hunpack
    exact hfinite hunpack
  · rw [h]
    rfl
  · have hn : n = (n.natAbs : Int) := by omega
    have hunpack := unpack_ofNat (Int.natAbs_pos.2 (Int.ne_of_gt h)) hs
    rw [hn]
    exact hfinite hunpack

theorem Exact.ofFloat?_ofInt {n : Int} (hs : n.natAbs < 2 ^ 53) (hn : n ≠ 0) :
    Exact.ofFloat? (Float.ofInt n) = some ⟨decide (n < 0),
      n.natAbs * 2 ^ zerosAfter n.natAbs, -(zerosAfter n.natAbs : Int)⟩ := by
  have hpos : 0 < n.natAbs := Int.natAbs_pos.2 hn
  rw [Exact.ofFloat?_eq]
  rcases Int.natAbs_eq n with h | h
  · have hneg : ¬ n < 0 := by omega
    have hof : Float.ofInt n = Float.ofNat n.natAbs := by rw [h]; rfl
    rw [hof, unpack_ofNat hpos hs, decide_eq_false hneg]
    rfl
  · have hneg : n < 0 := by omega
    have hunpack := unpack_ofInt_neg hpos hs
    rw [← h] at hunpack
    rw [hunpack, decide_eq_true hneg]
    rfl

end Whole

end Concordance

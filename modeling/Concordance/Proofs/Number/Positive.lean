import Concordance.Number.Double
import Mathlib

/-!
Doubles above zero.  Counts above zero are doubles above zero, and so are sums of such doubles:
rounding may lose digits and may reach infinity, but it takes no number from the smallest double on
down to zero.
-/

namespace Concordance

open Float.Model (Format totalExponent UnpackedFloat)
open Float.Model.UnpackedFloat

def IsAbove (u : UnpackedFloat) : Prop :=
  u = .infinity .positive ∨ ∃ m e h, u = .finite .positive m e h

/-- A number as the double that holds it gives it back. -/
def stored (u : UnpackedFloat) : UnpackedFloat :=
  UnpackedFloat.unpack Format.binary64 (pack Format.binary64 u)

section Pack

theorem unpackSign_packComponents {spec : Format} {sign : Sign}
    {exponent : BitVec spec.exponentBits} {fraction : BitVec spec.mantissaBitsWithoutImplicit} :
    unpackSign (packComponents spec sign exponent fraction) = sign.toBitVec := by
  ext i hi
  have h : ∀ a b : Nat, ¬ a + b + i < a ∧ ¬ a + b + i - a < b ∧ a + b + i - a - b = i := by omega
  obtain ⟨h₁, h₂, h₃⟩ := h spec.mantissaBitsWithoutImplicit spec.exponentBits
  simp [unpackSign, packComponents, BitVec.getLsbD_append, h₁, h₂, h₃,
    BitVec.getLsbD_eq_getElem hi]

theorem isAbove_packComponents {exponent : BitVec 11} {fraction : BitVec 52}
    (hi : exponent = -1#11 → fraction = 0#52) (hz : exponent = 0#11 → fraction ≠ 0#52) :
    IsAbove (UnpackedFloat.unpack Format.binary64
      (packComponents Format.binary64 .positive exponent fraction)) := by
  have hs : Sign.ofBitVec Sign.positive.toBitVec = .positive := rfl
  unfold UnpackedFloat.unpack
  simp only [unpackExponent_packComponents, unpackMantissa_packComponents,
    unpackSign_packComponents, hs]
  split
  next he =>
    rw [if_pos (hi he)]
    exact .inl rfl
  next =>
    split
    next he =>
      rw [dif_neg (hz he)]
      exact .inr ⟨_, _, _, rfl⟩
    next => exact .inr ⟨_, _, _, rfl⟩

theorem isAbove_infinity : IsAbove (stored (.infinity .positive)) :=
  isAbove_packComponents (fun _ => rfl) (fun h => by cases h)

theorem add_exponentBias (e : Int) :
    e + (Format.binary64.exponentBias : Int) + (52 : Nat) = e + 1075 := by
  rw [show (Format.binary64.exponentBias : Int) = 1023 from rfl]
  omega

theorem isAbove_finite {m : Nat} {e : Int} {h : 0 < m} (hm : m < 2 ^ 53) (he : -1074 ≤ e) :
    IsAbove (stored (.finite .positive m e h)) := by
  have hb := add_exponentBias e
  unfold stored pack
  simp only [hb]
  split
  · exact isAbove_infinity
  next hlt =>
    split
    next hn =>
      refine isAbove_packComponents (fun hx => ?_) (fun hx => ?_)
      · have hx := congrArg BitVec.toNat hx
        rw [BitVec.toNat_ofNat, show (-1#11).toNat = 2047 from rfl] at hx
        omega
      · have hx := congrArg BitVec.toNat hx
        rw [BitVec.toNat_ofNat, show (0#11).toNat = 0 from rfl] at hx
        omega
    next hn =>
      refine isAbove_packComponents (fun hx => by cases hx) (fun _ hx => ?_)
      have hlog : m.log2 < 53 := (Nat.log2_lt (Nat.ne_of_gt h)).2 hm
      have h53 : Format.binary64.mantissaBits = 53 := rfl
      have hs : m < 2 ^ 52 := (Nat.log2_lt (Nat.ne_of_gt h)).1 (by omega)
      have hx := congrArg BitVec.toNat hx
      rw [BitVec.toNat_ofNat, show (0#52).toNat = 0 from rfl] at hx
      omega

theorem unpack_bounds {b : BitVec 64} {s : Sign} {m : Nat} {e : Int} {h : 0 < m}
    (hu : UnpackedFloat.unpack Format.binary64 b = .finite s m e h) :
    m < 2 ^ 53 ∧ -1074 ≤ e := by
  unfold UnpackedFloat.unpack at hu
  have hbias : (Format.binary64.exponentBias : Int) + (52 : Nat) = 1075 := rfl
  simp only [hbias] at hu
  split at hu
  · split at hu <;> cases hu
  · split at hu
    · split at hu
      · cases hu
      · cases hu
        have hm := (@unpackMantissa Format.binary64 b).isLt
        omega
    next hz =>
      cases hu
      have hp : (@unpackExponent Format.binary64 b).toNat ≠ 0 :=
        fun hn => hz (BitVec.eq_of_toNat_eq hn)
      exact ⟨(1#1 ++ @unpackMantissa Format.binary64 b).isLt, by omega⟩

end Pack

section Round

variable {m : Nat} {e : Int}

theorem mantissa_shiftRight (em : ExtendedMantissa) (n : Nat) :
    (em >>> n).mantissa = em.mantissa / 2 ^ n := by
  show (n.repeat ExtendedMantissa.shiftRightOne em).mantissa = _
  induction n with
  | zero => simp [Nat.repeat]
  | succ n ih =>
    show (n.repeat ExtendedMantissa.shiftRightOne em).mantissa / 2 = _
    rw [ih, Nat.div_div_eq_div_mul, Nat.pow_succ]

theorem shiftToTargetExponent_bounds (hm : 0 < m) (he : -1074 ≤ e + m.log2)
    (accuracy : Accuracy) :
    let cut := shiftToTargetExponent Format.binary64 m e accuracy
    0 < cut.1.mantissa ∧ cut.1.mantissa < 2 ^ 53 ∧ -1074 ≤ cut.2 := by
  have hstart : (ExtendedMantissa.ofMantissaAndAccuracy m accuracy).mantissa = m := by
    unfold ExtendedMantissa.ofMantissaAndAccuracy
    split <;> rfl
  have ht : Format.binary64.targetExponent (totalExponent m e) =
      max ((m.log2 : Int) + 1 + e - 53) (-1074) := rfl
  unfold shiftToTargetExponent shiftToExponent
  simp only [mantissa_shiftRight, hstart, ht]
  generalize hk : (max ((m.log2 : Int) + 1 + e - 53) (-1074) - e).toNat = k
  refine ⟨Nat.div_pos ?_ (Nat.two_pow_pos _), ?_, by omega⟩
  · exact Nat.le_trans (Nat.pow_le_pow_right (by decide) (by omega))
      (Nat.log2_self_le (Nat.ne_of_gt hm))
  · rw [Nat.div_lt_iff_lt_mul (Nat.two_pow_pos _), ← Nat.pow_add]
    exact Nat.lt_of_lt_of_le Nat.lt_log2_self (Nat.pow_le_pow_right (by decide) (by omega))

theorem mantissa_le_roundedMantissa (em : ExtendedMantissa) : em.mantissa ≤ em.roundedMantissa := by
  unfold ExtendedMantissa.roundedMantissa Accuracy.roundToNearestEven
  split <;> omega

theorem isAbove_roundWithAccuracy (hm : 0 < m) (he : -1074 ≤ e + m.log2) (accuracy : Accuracy) :
    IsAbove (stored (roundWithAccuracy Format.binary64 .positive m e accuracy)) := by
  obtain ⟨hfirst, -, hexp⟩ := shiftToTargetExponent_bounds hm he accuracy
  unfold roundWithAccuracy
  simp only
  generalize shiftToTargetExponent Format.binary64 m e accuracy = cut at hfirst hexp
  -- Rounding up may take one digit more, so the number is cut once again.
  have hr : 0 < cut.1.roundedMantissa := Nat.lt_of_lt_of_le hfirst (mantissa_le_roundedMantissa _)
  obtain ⟨hpos, hlt, hexp⟩ := shiftToTargetExponent_bounds (e := cut.2) hr (by omega) .exact
  rw [dif_neg (Nat.ne_of_gt hpos)]
  exact isAbove_finite hlt hexp

theorem log2_mul_two_pow (hm : 0 < m) (k : Nat) : (m * 2 ^ k).log2 = m.log2 + k := by
  rw [Nat.log2_eq_iff (Nat.ne_of_gt (Nat.mul_pos hm (Nat.two_pow_pos k)))]
  constructor
  · rw [Nat.pow_add]
    exact Nat.mul_le_mul_right _ (Nat.log2_self_le (Nat.ne_of_gt hm))
  · rw [show m.log2 + k + 1 = m.log2 + 1 + k by omega, Nat.pow_add]
    exact Nat.mul_lt_mul_of_pos_right Nat.lt_log2_self (Nat.two_pow_pos k)

theorem isAbove_normalize (hm : 0 < m) (he : -1074 ≤ e) (zeroSign : Sign) :
    IsAbove (stored (UnpackedFloat.normalize Format.binary64 m e zeroSign)) := by
  have hc : compare (m : Int) 0 = .gt := Int.compare_eq_gt.2 (by omega)
  unfold UnpackedFloat.normalize
  rw [hc]
  show IsAbove (stored (UnpackedFloat.round Format.binary64 .positive m e))
  unfold UnpackedFloat.round decreaseExponent
  simp only [Nat.shiftLeft_eq]
  generalize (e - Format.binary64.targetExponent (totalExponent m e)).toNat = k
  have hlog := log2_mul_two_pow hm k
  exact isAbove_roundWithAccuracy (Nat.mul_pos hm (Nat.two_pow_pos _)) (by omega) .exact

theorem isAbove_mul {n : Nat} {f : Int} {hm : 0 < m} {hn : 0 < n}
    (h : -1074 ≤ e + f + (m * n).log2) :
    IsAbove (stored (UnpackedFloat.mul Format.binary64 (.finite .positive m e hm)
      (.finite .positive n f hn))) :=
  isAbove_roundWithAccuracy (Nat.mul_pos hm hn) h .exact

end Round

def AboveZero (x : Float) : Prop := IsAbove x.toModel.unpack

section AboveZero

variable {x y : Float}

theorem unpack_zero : (0 : Float).toModel.unpack = .zero .positive := rfl

theorem AboveZero.beq_zero (h : AboveZero x) : (x == 0) = false := by
  show x.toModel.unpack.beq (0 : Float).toModel.unpack = false
  rw [unpack_zero]
  rcases h with h | ⟨m, e, hm, h⟩ <;> rw [h] <;> rfl

theorem AboveZero.add (hx : AboveZero x) (hy : AboveZero y) : AboveZero (x + y) := by
  show IsAbove (stored (UnpackedFloat.add Format.binary64 x.toModel.unpack y.toModel.unpack))
  rcases hx with hx | ⟨m, e, hm, hx⟩ <;> rcases hy with hy | ⟨n, f, hn, hy⟩ <;> rw [hx, hy]
  · exact isAbove_infinity
  · exact isAbove_infinity
  · exact isAbove_infinity
  · have he := (unpack_bounds hx).2
    have hf := (unpack_bounds hy).2
    simp only [UnpackedFloat.add, decreaseExponent, Sign.apply, ← Int.natCast_add,
      Nat.shiftLeft_eq]
    exact isAbove_normalize (Nat.add_pos_left (Nat.mul_pos hm (Nat.two_pow_pos _)) _) (by omega) _

theorem AboveZero.zero_add (h : AboveZero x) : AboveZero (0 + x) := by
  show IsAbove (stored (UnpackedFloat.add Format.binary64 (0 : Float).toModel.unpack
    x.toModel.unpack))
  rw [unpack_zero]
  rcases h with h | ⟨m, e, hm, h⟩ <;> rw [h]
  · exact isAbove_infinity
  · obtain ⟨hlt, he⟩ := unpack_bounds h
    exact isAbove_finite hlt he

theorem AboveZero.mul_one (h : AboveZero x) :
    AboveZero (x * Float.ofBits 0x3FF0000000000000) := by
  have hone : (Float.ofBits 0x3FF0000000000000).toModel.unpack =
      .finite .positive (2 ^ 52) (-52) (by decide) := rfl
  show IsAbove (stored (UnpackedFloat.mul Format.binary64 x.toModel.unpack
    (Float.ofBits 0x3FF0000000000000).toModel.unpack))
  rw [hone]
  rcases h with h | ⟨m, e, hm, h⟩ <;> rw [h]
  · exact isAbove_infinity
  · have hlog := log2_mul_two_pow hm 52
    have he := (unpack_bounds h).2
    exact isAbove_mul (by omega)

theorem aboveZero_ofNat {n : Nat} (hn : 0 < n) : AboveZero (Float.ofNat n) := by
  show AboveZero (Float.ofScientific n false 0)
  unfold Float.ofScientific
  split
  next hs =>
    have hw : n.toUInt64.toNat = n := by
      simp only [Nat.toUInt64, UInt64.toNat_ofNat']
      omega
    refine AboveZero.mul_one ?_
    show IsAbove (stored (UnpackedFloat.normalize Format.binary64 (n.toUInt64.toNat : Int) 0
      .positive))
    rw [hw]
    exact isAbove_normalize hn (by decide) _
  next hs =>
    show IsAbove (stored (UnpackedFloat.ofScientific Format.binary64 n 0))
    have hlog := log2_mul_two_pow hn 53
    have hp : (0 : Int) < 2 ^ 11 := by decide
    unfold UnpackedFloat.ofScientific
    rw [dif_neg (Nat.ne_of_gt hn), if_neg (by decide),
      if_neg (show ¬ (0 : Int) < -(2 ^ 11 + (n.log2 : Int)) by omega), if_pos (by decide)]
    refine isAbove_mul ?_
    show (-1074 : Int) ≤ -53 + 0 + ((n <<< 53 * 1).log2 : Nat)
    rw [Nat.mul_one, Nat.shiftLeft_eq]
    omega

end AboveZero

end Concordance

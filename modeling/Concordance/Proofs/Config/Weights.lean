import Concordance.Config.Basic
import Concordance.Proofs.Number.Whole

namespace Concordance

open Float.Model (UnpackedFloat)

theorem lt_iff_of_unpack {x y : Float} {m : Nat} {e : Int} {h : 0 < m}
    (hx : x.toModel.unpack = .finite .positive m e h) : x < y ↔
      y.toModel.unpack = .infinity .positive ∨ ∃ n f h, y.toModel.unpack = .finite .positive n f h ∧
        (e < f ∨ e = f ∧ m < n) := by
  have hlt : x < y ↔ x.toModel.unpack.lt y.toModel.unpack = true := by
    show decide (x.toModel < y.toModel) = true ↔ _
    rw [decide_eq_true_eq]
    rfl
  rw [hlt, hx]
  unfold UnpackedFloat.lt
  cases y.toModel.unpack with
  | notANumber => simp [UnpackedFloat.compare]
  | infinity sign => cases sign <;> simp [UnpackedFloat.compare]
  | zero sign => simp [UnpackedFloat.compare]
  | finite sign n f hn =>
    cases sign <;> simp [UnpackedFloat.compare, Ordering.then_eq_lt, Std.compare_eq_lt, hn]

theorem unpack_one : (1 : Float).toModel.unpack = .finite .positive (2 ^ 52) (-52) (by decide) :=
  rfl

section Weight

variable {weight : Float}

/-- A weight below one and a half counts once, and so does one that is not finite. -/
theorem weightRepeats_eq_one (h : ∀ e, Exact.ofFloat? weight = some e →
    e.negative = true ∨ 2 * e.numerator < 3 * e.denominator) : weightRepeats weight = 1 := by
  unfold weightRepeats
  split
  next => rfl
  next e he => exact if_pos (by simpa using h e he)

variable (h : ¬ 1 < weight)
include h

theorem weightRepeats_of_not_lt : weightRepeats weight = 1 := by
  rw [lt_iff_of_unpack unpack_one] at h
  refine weightRepeats_eq_one fun exact he => ?_
  rw [Exact.ofFloat?_eq] at he
  cases hu : weight.toModel.unpack with
  | notANumber =>
    rw [hu] at he
    cases he
  | infinity sign =>
    rw [hu] at he
    cases he
  | zero sign =>
    rw [hu] at he
    cases he
    exact .inr (by simp [Exact.numerator, Exact.denominator_pos])
  | finite sign m e hm =>
    rw [hu] at he
    cases he
    cases sign with
    | negative => exact .inl rfl
    | positive =>
      have hlow : ¬ (-52 < e ∨ -52 = e ∧ 2 ^ 52 < m) := fun hb => h (.inr ⟨m, e, hm, hu, hb⟩)
      have hz : e.toNat = 0 := by omega
      right
      show 2 * (m * 2 ^ e.toNat) < 3 * 2 ^ (-e).toNat
      rw [hz, Nat.pow_zero, Nat.mul_one]
      rcases Nat.lt_or_ge 52 (-e).toNat with hk | hk
      · have hm := (unpack_bounds hu).1
        have hd : 2 ^ 53 ≤ 2 ^ (-e).toNat := Nat.pow_le_pow_right (by decide) hk
        omega
      · have hk : (-e).toNat = 52 := by omega
        rw [hk]
        omega

theorem not_weightLimit_lt : ¬ Config.weightLimit < weight := by
  have hl : Config.weightLimit.toModel.unpack =
      .finite .positive (1000 * 2 ^ 43) (-43) (by decide) := rfl
  rw [lt_iff_of_unpack unpack_one] at h
  rw [lt_iff_of_unpack hl]
  rintro (hi | ⟨m, e, hm, hu, he⟩)
  · exact h (.inl hi)
  · exact h (.inr ⟨m, e, hm, hu, .inl (by omega)⟩)

end Weight

namespace Config

variable {config : Config}
  (h : ∀ (field : String) (weight : Float), config.weights[field]? = some weight → ¬ 1 < weight)
include h

theorem repeatCount_of_not_lt (field : String) : config.repeatCount field = 1 := by
  unfold repeatCount
  split
  next weight hw => exact weightRepeats_of_not_lt (h field weight hw)
  next => rfl

theorem check_of_not_lt : config.check = .ok () := by
  unfold check
  split
  next field weight hf =>
    have hm := Std.ExtTreeMap.mem_toList_iff_getElem?_eq_some.1 (List.mem_of_find?_eq_some hf)
    exact absurd (by simpa using List.find?_some hf) (not_weightLimit_lt (h field weight hm))
  next => rfl

end Config

end Concordance

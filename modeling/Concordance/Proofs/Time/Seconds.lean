import Concordance.Proofs.Number.Whole
import Concordance.Time.Timestamp

namespace Concordance.Timestamp

open Float.Model (Format UnpackedFloat)
open Float.Model.UnpackedFloat

theorem floorOf_whole (negative : Bool) (m k : Nat) :
    floorOf ⟨negative, m * 2 ^ k, -(k : Int)⟩ = if negative then -(m : Int) else m := by
  have hnum : (Exact.mk negative (m * 2 ^ k) (-(k : Int))).numerator = m * 2 ^ k := by
    have hz : (-(k : Int)).toNat = 0 := by omega
    simp [Exact.numerator, hz]
  have hden : (Exact.mk negative (m * 2 ^ k) (-(k : Int))).denominator = 2 ^ k := by
    simp [Exact.denominator]
  have hpos : 0 < 2 ^ k := Nat.two_pow_pos k
  have hceil : (m * 2 ^ k + 2 ^ k - 1) / 2 ^ k = m := by
    rw [Nat.add_sub_assoc hpos, Nat.mul_comm, Nat.mul_add_div hpos, Nat.div_eq_of_lt (by omega),
      Nat.add_zero]
  rw [floorOf, hnum, hden, hceil, Nat.mul_div_cancel m hpos]

variable {n : Int}

theorem exists_ofFloat?_ofInt (hs : n.natAbs < 2 ^ 53) :
    ∃ e, Exact.ofFloat? (Float.ofInt n) = some e ∧ floorOf e = n := by
  by_cases hn : n = 0
  · subst hn
    refine ⟨⟨false, 0 * 2 ^ 1074, -(1074 : Nat)⟩, ?_, floorOf_whole false 0 1074⟩
    rw [Exact.ofFloat?_eq, unpack_ofInt_zero, Nat.zero_mul]
    rfl
  · refine ⟨_, Exact.ofFloat?_ofInt hs hn, ?_⟩
    rw [floorOf_whole]
    by_cases hneg : n < 0
    · simp only [hneg, decide_true, if_true]
      omega
    · simp only [hneg, decide_false, Bool.false_eq_true, if_false]
      omega

theorem ofFloat?_nanos (hs : n.natAbs < 2 ^ 53) :
    Exact.ofFloat? ((Float.ofInt n - Float.ofInt n) * 1000000000) = some ⟨false, 0, -1074⟩ := by
  have hsub := unpack_sub_self hs
  have hbillion : (1000000000 : Float).toModel.unpack = wholeDouble .positive 1000000000
      (by decide) := unpack_ofNat (by decide) (by decide)
  rw [Exact.ofFloat?_eq]
  show Exact.ofUnpacked? (stored (UnpackedFloat.mul Format.binary64
    (Float.ofInt n - Float.ofInt n).toModel.unpack (1000000000 : Float).toModel.unpack)) = _
  rw [hsub, hbillion]
  rfl

theorem ofDouble?_ofInt (hs : n.natAbs < 2 ^ 53) :
    ofDouble? (Float.ofInt n) = ofSeconds? n 0 := by
  obtain ⟨e, he, hfloor⟩ := exists_ofFloat?_ofInt hs
  have hnanos : roundDiv .up (Exact.mk false 0 (-1074)).numerator
      (Exact.mk false 0 (-1074)).denominator = 0 := by
    have hpos := (Exact.mk false 0 (-1074)).denominator_pos
    simp [roundDiv, Exact.numerator, hpos]
  simp only [ofDouble?, he, Option.bind_eq_bind, Option.bind_some, hfloor, ofFloat?_nanos hs, hnanos]
  rfl

/-- Seconds of the years that four digits can write, shifted by a day at most, are a double of their
own and within the range of instants. -/
theorem read?_int (hlow : -62167305600 ≤ n) (hhigh : n < 253403251200) :
    read? (.int n) = some ⟨n, 0⟩ := by
  have hfirst : (Date.mk Date.firstYear 1 1).dayNumber = -96465292 := by decide
  have hlast : (Date.mk Date.lastYear 12 31).dayNumber = 95026236 := by decide
  have hrange : (Instant.mk n 0).inRange = true := by
    simp only [Instant.inRange, hfirst, hlast, Instant.secondsPerDay, Bool.and_eq_true,
      decide_eq_true_eq]
    omega
  show ofDouble? (Float.ofInt n) = _
  rw [ofDouble?_ofInt (by omega), ofSeconds?]
  exact if_pos hrange

end Concordance.Timestamp

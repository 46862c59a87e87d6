import Concordance.Proofs.Number.Real
import Concordance.Ranking.Basic

namespace Concordance

namespace Instant

def nanoseconds (t : Instant) : Int := t.seconds * nanosPerSecond + t.nanos

/-- The whole milliseconds that have passed since an instant; none if it is still to come. -/
def age (now t : Instant) : Int := max 0 ((now.nanoseconds - t.nanoseconds).tdiv 1000000)

end Instant

namespace Recency

variable {r : Recency ℝ} {s t : Instant}

theorem ageMillis_eq_age (hn : r.now.isLeap = false) (ht : t.isLeap = false) :
    (r.ageMillis t : Int) = r.now.age t := by
  rw [ageMillis, Instant.millisSince, Instant.nanosSince_of_not_leap hn ht, Int.toNat_eq_max,
    max_comm]
  rfl

theorem boost_real (r : Recency ℝ) (t : Instant) : r.boost t =
    r.maxBoost * Real.exp (-((r.ageMillis t : ℝ) / (1000 : Nat) / (86400 : Nat)) / r.decayDays) :=
  rfl

theorem score_total (r : Recency ℝ) (tokens : List String) (index : Index) (id : String) :
    (r.score tokens index id).total = ((timestamp? index id).map r.boost).getD 0 := by
  rw [← Scalar.zero_real]
  rfl

section Boost

variable (hd : 0 < r.decayDays) (hb : 0 < r.maxBoost)
include hb

theorem boost_pos (t : Instant) : 0 < r.boost t := mul_pos hb (Real.exp_pos _)

include hd

theorem boost_le (t : Instant) : r.boost t ≤ r.maxBoost := by
  have hage : 0 ≤ (r.ageMillis t : ℝ) / (1000 : Nat) / (86400 : Nat) := by positivity
  have hexp := Real.exp_le_one_iff.2 (div_nonpos_of_nonpos_of_nonneg (neg_nonpos.2 hage) hd.le)
  rw [boost_real]
  exact mul_le_of_le_one_right hb.le hexp

theorem boost_lt_boost : r.boost s < r.boost t ↔ r.ageMillis t < r.ageMillis s := by
  have h1000 : (0 : ℝ) < (1000 : Nat) := by norm_num
  have h86400 : (0 : ℝ) < (86400 : Nat) := by norm_num
  rw [boost_real, boost_real, mul_lt_mul_iff_right₀ hb, Real.exp_lt_exp,
    div_lt_div_iff_of_pos_right hd, neg_lt_neg_iff, div_lt_div_iff_of_pos_right h86400,
    div_lt_div_iff_of_pos_right h1000, Nat.cast_lt]

theorem boost_inj : r.boost s = r.boost t ↔ r.ageMillis s = r.ageMillis t := by
  rw [le_antisymm_iff, ← not_lt, ← not_lt, boost_lt_boost hd hb, boost_lt_boost hd hb]
  omega

theorem score_bounds (tokens : List String) (index : Index) (id : String) :
    0 ≤ (r.score tokens index id).total ∧ (r.score tokens index id).total ≤ r.maxBoost := by
  rw [score_total]
  cases timestamp? index id with
  | none => exact ⟨le_rfl, hb.le⟩
  | some t => exact ⟨(boost_pos hb t).le, boost_le hd hb t⟩

end Boost

end Recency

end Concordance

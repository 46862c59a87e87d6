import Concordance.Proofs.Index.Order
import Concordance.Proofs.Number.Real
import Concordance.Ranking.Basic

/-!
Scores over the reals.  A score by terms is a sum over the tokens of a query, and a token adds to it
exactly if its frequency is not zero: then its weight is above zero and no divisor is zero.
-/

namespace Concordance

open Scalar

section Formulas

theorem smoothIdf_real (total df : Nat) :
    (smoothIdf total df : ℝ) = Real.log ((total + 1) / (df + 1)) + 1 := by
  show Real.log ((total + one) / (df + one)) + one = _
  rw [one_real]

namespace Saturation

theorem idf_real (total df : ℝ) :
    idf total df = Real.log ((total - df + 1 / 2) / (df + 1 / 2) + 1) := by
  show Real.log ((total - df + half) / (df + half) + one) = _
  rw [one_real, half_real]

theorem norm_real (s : Saturation ℝ) (index : Index) (id : String) : s.norm index id =
    1 - s.b + s.b * ((index.docLength? id).elim index.stats.averageLength (fun n => (n : ℝ)) /
      index.stats.averageLength) := by
  unfold norm
  rw [one_real]
  rfl

theorem part_real (s : Saturation ℝ) (norm idf tf : ℝ) :
    s.part norm idf tf = idf * (tf * (s.k1 + 1)) / (tf + s.k1 * norm) := by
  unfold part
  rw [one_real]

end Saturation

end Formulas

section Sums

variable (tokens : List String) (index : Index) (id : String)

theorem total_foldl {step : Score ℝ → String → Score ℝ} (share : String → ℝ)
    (h : ∀ score token, (step score token).total = score.total + share token) (score : Score ℝ) :
    (tokens.foldl step score).total = score.total + (tokens.map share).sum := by
  induction tokens generalizing score with
  | nil => simp
  | cons token tokens ih =>
    rw [List.foldl_cons, ih, h, List.map_cons, List.sum_cons, add_assoc]

theorem termFrequencyScore_total : (termFrequencyScore tokens index id : Score ℝ).total =
    (tokens.map fun token => (index.termFrequency id token : ℝ)).sum := by
  unfold termFrequencyScore
  rw [total_foldl tokens (fun token => (index.termFrequency id token : ℝ)), zero_real,
    zero_add]
  intro score token
  dsimp only
  split
  next hz => simp [beq_iff_eq.1 hz]
  next => rfl

noncomputable def tfIdfShare (token : String) : ℝ :=
  if index.docFreq token = 0 ∨ index.termFrequency id token = 0 then 0
  else index.termFrequency id token * smoothIdf index.totalDocs (index.docFreq token)

theorem tfIdfScore_total : (tfIdfScore tokens index id : Score ℝ).total =
    (tokens.map (tfIdfShare index id)).sum := by
  unfold tfIdfScore
  rw [total_foldl tokens (tfIdfShare index id), zero_real, zero_add]
  intro score token
  simp only [tfIdfShare, Bool.or_eq_true, beq_iff_eq]
  split
  next => rw [add_zero]
  next => rfl

noncomputable def Saturation.share (s : Saturation ℝ) (token : String) : ℝ :=
  if index.termFrequency id token = 0 ∨ index.docFreq token = 0 then 0
  else s.part (s.norm index id) (Saturation.idf index.totalDocs (index.docFreq token))
    (index.termFrequency id token)

theorem Saturation.score_total (s : Saturation ℝ) : (s.score tokens index id).total =
    (tokens.map (s.share index id)).sum := by
  unfold Saturation.score
  dsimp only
  rw [total_foldl tokens (s.share index id), zero_real, zero_add]
  intro score token
  simp only [Saturation.share, Bool.or_eq_true, beq_iff_eq]
  split
  next => rw [add_zero]
  next => rfl

end Sums

/-- Saturations that can be made from numbers: `k1` from zero up, `b` from zero to one. -/
structure Saturation.Admissible (s : Saturation ℝ) : Prop where
  k1 : 0 ≤ s.k1
  b : 0 ≤ s.b ∧ s.b ≤ 1

/-- The formulas make sense of a token in a document: its weights are above zero, and so is all that is
divided by. -/
structure Index.Weighs (index : Index) (id token : String) : Prop where
  total : 0 < index.totalDocs
  smoothIdf : 0 < (Concordance.smoothIdf index.totalDocs (index.docFreq token) : ℝ)
  smoothIdf_divisor : 0 < (index.docFreq token : ℝ) + 1
  idf : 0 < Saturation.idf (index.totalDocs : ℝ) (index.docFreq token)
  idf_divisor : 0 < (index.docFreq token : ℝ) + 1 / 2
  average : 0 < (index.stats.averageLength : ℝ)
  saturation : ∀ s : Saturation ℝ, s.Admissible →
    0 < index.termFrequency id token + s.k1 * s.norm index id

section Positive

theorem CorpusStats.averageLength_pos (s : CorpusStats) : 0 < (s.averageLength : ℝ) := by
  unfold averageLength
  split
  next => simp [one_real]
  next hz =>
    obtain ⟨ht, hl⟩ : s.total ≠ 0 ∧ s.lengthSum ≠ 0 := by simpa using hz
    have ht : (0 : ℝ) < s.total := Nat.cast_pos.2 (Nat.pos_of_ne_zero ht)
    have hl : (0 : ℝ) < s.lengthSum := Nat.cast_pos.2 (Nat.pos_of_ne_zero hl)
    exact div_pos hl ht

theorem Saturation.Admissible.norm_nonneg {s : Saturation ℝ} (h : s.Admissible) (index : Index)
    (id : String) : 0 ≤ s.norm index id := by
  have ha := index.stats.averageLength_pos
  have hl : 0 ≤ (index.docLength? id).elim index.stats.averageLength (fun n => (n : ℝ)) := by
    cases index.docLength? id with
    | none => exact ha.le
    | some n => exact Nat.cast_nonneg n
  have hq := mul_nonneg h.b.1 (div_nonneg hl ha.le)
  have hb := h.b.2
  rw [s.norm_real]
  linarith

theorem one_le_smoothIdf {total df : Nat} (h : df ≤ total) : 1 ≤ (smoothIdf total df : ℝ) := by
  have hd : (0 : ℝ) < df + 1 := by positivity
  have hle : (df : ℝ) + 1 ≤ total + 1 := by exact_mod_cast Nat.succ_le_succ h
  have hlog := Real.log_nonneg ((one_le_div hd).2 hle)
  rw [smoothIdf_real]
  linarith

theorem Saturation.idf_pos {total df : Nat} (h : df ≤ total) :
    0 < Saturation.idf (total : ℝ) df := by
  have hle : (df : ℝ) ≤ total := by exact_mod_cast h
  have hq : 0 < ((total : ℝ) - df + 1 / 2) / (df + 1 / 2) :=
    div_pos (by linarith) (by positivity)
  rw [Saturation.idf_real]
  exact Real.log_pos (by linarith)

variable {index : Index} {id token : String} {tokens : List String}

theorem Index.termFrequency_pos (hn : index.termFrequency id token ≠ 0) :
    (0 : ℝ) < index.termFrequency id token :=
  Nat.cast_pos.2 (Nat.pos_of_ne_zero hn)

theorem sum_shares_pos {share : String → ℝ}
    (hz : ∀ token, index.termFrequency id token = 0 → share token = 0)
    (hp : ∀ token, index.termFrequency id token ≠ 0 → 0 < share token)
    (hc : ∃ token ∈ tokens, index.termFrequency id token ≠ 0) : 0 < (tokens.map share).sum := by
  obtain ⟨token, hm, hn⟩ := hc
  refine (hp token hn).trans_le (List.single_le_sum ?_ _ (List.mem_map_of_mem hm))
  simp only [List.forall_mem_map]
  intro other _
  by_cases ht : index.termFrequency id other = 0
  · exact (hz other ht).ge
  · exact (hp other ht).le

theorem termFrequencyScore_pos (hc : ∃ token ∈ tokens, index.termFrequency id token ≠ 0) :
    0 < (termFrequencyScore tokens index id : Score ℝ).total := by
  rw [termFrequencyScore_total]
  exact sum_shares_pos (fun token hz => by simp [hz]) (fun token => Index.termFrequency_pos) hc

variable {docs : List Document} (h : index.Holds docs) (hw : docs.length < 2 ^ 64)
include h hw

theorem Index.Holds.docFreq_ne_zero (hn : index.termFrequency id token ≠ 0) :
    index.docFreq token ≠ 0 :=
  (h.docFreq_bounds hw (h.contains_of_termFrequency_ne_zero hn)).1.ne'

theorem Index.Holds.weighs (hn : index.termFrequency id token ≠ 0) : index.Weighs id token := by
  obtain ⟨hpos, hle⟩ := h.docFreq_bounds hw (h.contains_of_termFrequency_ne_zero hn)
  exact {
    total := by omega
    smoothIdf := lt_of_lt_of_le one_pos (one_le_smoothIdf hle)
    smoothIdf_divisor := by positivity
    idf := Saturation.idf_pos hle
    idf_divisor := by positivity
    average := index.stats.averageLength_pos
    saturation := fun s hs => add_pos_of_pos_of_nonneg (Index.termFrequency_pos hn)
      (mul_nonneg hs.k1 (hs.norm_nonneg index id)) }

theorem Index.Holds.tfIdfScore_pos (hc : ∃ token ∈ tokens, index.termFrequency id token ≠ 0) :
    0 < (tfIdfScore tokens index id : Score ℝ).total := by
  rw [tfIdfScore_total]
  refine sum_shares_pos (fun token hz => by simp [tfIdfShare, hz]) (fun token hn => ?_) hc
  rw [tfIdfShare, if_neg (not_or.2 ⟨h.docFreq_ne_zero hw hn, hn⟩)]
  exact mul_pos (Index.termFrequency_pos hn) (h.weighs hw hn).smoothIdf

theorem Index.Holds.share_pos {s : Saturation ℝ} (hs : s.Admissible)
    (hn : index.termFrequency id token ≠ 0) : 0 < s.share index id token := by
  have ht := h.weighs hw hn
  have hk : 0 < s.k1 + 1 := add_pos_of_nonneg_of_pos hs.k1 one_pos
  rw [Saturation.share, if_neg (not_or.2 ⟨hn, h.docFreq_ne_zero hw hn⟩), s.part_real]
  exact div_pos (mul_pos ht.idf (mul_pos (Index.termFrequency_pos hn) hk)) (ht.saturation s hs)

theorem Index.Holds.saturationScore_pos {s : Saturation ℝ} (hs : s.Admissible)
    (hc : ∃ token ∈ tokens, index.termFrequency id token ≠ 0) :
    0 < (s.score tokens index id).total := by
  rw [s.score_total]
  exact sum_shares_pos (fun token hz => by simp [Saturation.share, hz])
    (fun token hn => h.share_pos hw hs hn) hc

end Positive

inductive Ranking.IsTextual : Ranking ℝ → Prop where
  | termFrequency : IsTextual .termFrequency
  | tfIdf : IsTextual .tfIdf
  | bm25 {s : Saturation ℝ} : s.Admissible → IsTextual (.bm25 s)
  | robust : IsTextual (.robust .standard)

theorem Blend.standard_real : (Blend.standard : Blend ℝ) = ⟨2 / 5, 3 / 5⟩ := by
  show Blend.mk (((2 : Nat) : ℝ) / ((5 : Nat) : ℝ)) (((3 : Nat) : ℝ) / ((5 : Nat) : ℝ)) = _
  norm_num

/-- A document in which one of the tokens is counted is scored above zero. -/
theorem Ranking.IsTextual.total_pos {ranking : Ranking ℝ} (hr : ranking.IsTextual) {index : Index}
    {docs : List Document} (h : index.Holds docs) (hw : docs.length < 2 ^ 64) {id : String}
    {tokens : List String} (hc : ∃ token ∈ tokens, index.termFrequency id token ≠ 0) :
    0 < (ranking.scorer tokens index id).total := by
  have hplain := termFrequencyScore_pos hc
  have hweighted := h.tfIdfScore_pos hw hc
  unfold Ranking.scorer
  cases hr with
  | termFrequency =>
    rw [Ranking.score]
    exact hplain
  | tfIdf =>
    rw [Ranking.score]
    exact hweighted
  | bm25 hs =>
    rw [Ranking.score]
    exact h.saturationScore_pos hw hs hc
  | robust =>
    rw [Ranking.score, Blend.standard_real]
    exact add_pos (mul_pos (by norm_num) hplain) (mul_pos (by norm_num) hweighted)

end Concordance

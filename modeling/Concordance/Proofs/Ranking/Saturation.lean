import Concordance.Proofs.Ranking.Breakdown

namespace Concordance

namespace Saturation.Admissible

variable {s : Saturation ℝ} (hs : s.Admissible) {weight norm tf : ℝ}
include hs

theorem divisor_pos (hn : 0 ≤ norm) (ht : 0 < tf) : 0 < tf + s.k1 * norm :=
  add_pos_of_pos_of_nonneg ht (mul_nonneg hs.k1 hn)

theorem part_le_part {less more : ℝ} (hw : 0 ≤ weight) (hl : 0 ≤ less) (hn : less ≤ norm)
    (ht : 0 < tf) (hm : tf ≤ more) : s.part norm weight tf ≤ s.part less weight more := by
  have hk : 0 ≤ weight * (s.k1 + 1) := mul_nonneg hw (add_nonneg hs.k1 zero_le_one)
  -- Once the divisors are multiplied out, only the products of occurrences and length are left.
  have hcross : tf * (more + s.k1 * less) ≤ more * (tf + s.k1 * norm) := by
    have hprod : tf * less ≤ more * norm := mul_le_mul hm hn hl (ht.le.trans hm)
    linarith [mul_le_mul_of_nonneg_left hprod hs.k1]
  rw [s.part_real, s.part_real, div_le_div_iff₀ (hs.divisor_pos (hl.trans hn) ht)
    (hs.divisor_pos hl (ht.trans_le hm))]
  calc weight * (tf * (s.k1 + 1)) * (more + s.k1 * less)
      = weight * (s.k1 + 1) * (tf * (more + s.k1 * less)) := by ring
    _ ≤ weight * (s.k1 + 1) * (more * (tf + s.k1 * norm)) := mul_le_mul_of_nonneg_left hcross hk
    _ = weight * (more * (s.k1 + 1)) * (tf + s.k1 * norm) := by ring

theorem part_le (hw : 0 ≤ weight) (hn : 0 ≤ norm) (ht : 0 < tf) :
    s.part norm weight tf ≤ (s.k1 + 1) * weight := by
  have hk : 0 ≤ (s.k1 + 1) * weight := mul_nonneg (add_nonneg hs.k1 zero_le_one) hw
  have hle : tf ≤ tf + s.k1 * norm := le_add_of_nonneg_right (mul_nonneg hs.k1 hn)
  rw [s.part_real, div_le_iff₀ (hs.divisor_pos hn ht)]
  calc weight * (tf * (s.k1 + 1)) = (s.k1 + 1) * weight * tf := by ring
    _ ≤ (s.k1 + 1) * weight * (tf + s.k1 * norm) := mul_le_mul_of_nonneg_left hle hk

theorem norm_le_norm {index : Index} {id other : String} {m n : Nat}
    (hi : index.docLength? id = some m) (ho : index.docLength? other = some n) (hle : m ≤ n) :
    s.norm index id ≤ s.norm index other := by
  have ha : (0 : ℝ) ≤ index.stats.averageLength := index.stats.averageLength_pos.le
  have hq := div_le_div_of_nonneg_right (Nat.cast_le (α := ℝ).2 hle) ha
  have hb := mul_le_mul_of_nonneg_left hq hs.b.1
  rw [s.norm_real, s.norm_real, hi, ho]
  simpa using hb

end Saturation.Admissible

section Shares

variable {index : Index} {docs : List Document} (h : index.Holds docs) (hw : docs.length < 2 ^ 64)
  {s : Saturation ℝ} (hs : s.Admissible) {id other token : String}
include h hw hs

theorem Index.Holds.share_nonneg : 0 ≤ s.share index id token := by
  by_cases hz : index.termFrequency id token = 0
  · exact (s.share_eq_zero id hz).ge
  · exact (h.share_pos hw hs hz).le

theorem Index.Holds.share_le_share
    (ht : index.termFrequency other token ≤ index.termFrequency id token)
    (hn : s.norm index id ≤ s.norm index other) :
    s.share index other token ≤ s.share index id token := by
  by_cases hz : index.termFrequency other token = 0
  · rw [s.share_eq_zero other hz]
    exact h.share_nonneg hw hs
  · have hi : index.termFrequency id token ≠ 0 := by omega
    rw [h.share_eq_part hw other s hz, h.share_eq_part hw id s hi]
    exact hs.part_le_part (h.weighs hw hz).idf.le (hs.norm_nonneg index id) hn
      (Index.termFrequency_pos hz) (Nat.cast_le.2 ht)

theorem Index.Holds.share_le (hc : index.contains id token = true) : s.share index id token ≤
    (s.k1 + 1) * Saturation.idf (index.totalDocs : ℝ) (index.docFreq token) := by
  have hidf := Saturation.idf_pos (h.docFreq_bounds hw hc).2
  by_cases hz : index.termFrequency id token = 0
  · rw [s.share_eq_zero id hz]
    exact mul_nonneg (add_nonneg hs.k1 zero_le_one) hidf.le
  · rw [h.share_eq_part hw id s hz]
    exact hs.part_le hidf.le (hs.norm_nonneg index id) (Index.termFrequency_pos hz)

end Shares

/-- Of two documents of an index that has grown by additions, one that has each listed token at least
as often and is no longer scores no less, if its counts fit their words.  And every score is bounded by the weights of the listed
tokens that the document has, as often as they are listed, times `k1 + 1`. -/
theorem Index.saturation_rewards (docs : List Document)
    (few : (({} : Index).offerAll docs).documents.size < 2 ^ 64) {s : Saturation ℝ}
    (hs : s.Admissible) (tokens : List String) :
    let index := ({} : Index).offerAll docs
    (∀ d other : Document, documentOf? docs d.id = some d → documentOf? docs other.id = some other →
      CountsFit d.tokens →
      (∀ token ∈ tokens, other.tokens.count token ≤ d.tokens.count token) →
      d.tokens.length ≤ other.tokens.length →
      (s.score tokens index other.id).total ≤ (s.score tokens index d.id).total) ∧
    ∀ id, (s.score tokens index id).total ≤ (s.k1 + 1) * ((listedIn docs id tokens).map fun token =>
      Saturation.idf (index.totalDocs : ℝ) (index.docFreq token)).sum := by
  intro index
  obtain ⟨held, h, hd⟩ := Index.holds_nil.offerAll docs
  have hw : held.length < 2 ^ 64 := by rwa [← h.size_documents]
  have hdoc : ∀ id, documentOf? held id = documentOf? docs id := hd
  constructor
  · intro d other hid hother fit hcount hlength
    have hn : s.norm index d.id ≤ s.norm index other.id := by
      refine hs.norm_le_norm (m := d.tokens.length) (n := other.tokens.length) ?_ ?_ hlength
      · rw [docLength?, h.lengths, hdoc, hid, Option.map_some]
      · rw [docLength?, h.lengths, hdoc, hother, Option.map_some]
    rw [s.score_total, s.score_total]
    refine List.sum_le_sum fun token hm => h.share_le_share hw hs ?_ hn
    rw [h.termFrequency, h.termFrequency, hdoc, hdoc, hid, hother, Option.elim_some,
      Option.elim_some, fit.toNat_tally, toNat_tally]
    exact (Nat.mod_le ..).trans (hcount token hm)
  · intro id
    have hl : listedIn docs id tokens = tokens.filter (index.contains id) := by
      rw [h.filter_contains, listedIn, listedIn, hdoc]
    rw [s.score_total_filter id tokens fun _ hn => h.contains_of_termFrequency_ne_zero hn, hl,
      ← List.sum_map_mul_left]
    exact List.sum_le_sum fun token hm => h.share_le hw hs (List.mem_filter.1 hm).2

theorem Index.saturation_rewards_fox :
    let fox : Document := ⟨"1", ["fox", "fox", "red"], ∅⟩
    let hen : Document := ⟨"2", ["fox", "cat", "dog", "hen"], ∅⟩
    let docs := [fox, hen]
    let index := ({} : Index).offerAll docs
    let tokens := ["fox", "red", "fox"]
    let s : Saturation ℝ := ⟨1, 1⟩
    index.documents.size < 2 ^ 64 ∧ s.Admissible ∧
      documentOf? docs "1" = some fox ∧ documentOf? docs "2" = some hen ∧ CountsFit fox.tokens ∧
      (∀ token ∈ tokens, hen.tokens.count token ≤ fox.tokens.count token) ∧
      fox.tokens.length ≤ hen.tokens.length ∧
      (s.score tokens index "2").total ≤ (s.score tokens index "1").total ∧
      (s.score tokens index "2").total ≤ (1 + 1) * (Saturation.idf 2 2 + Saturation.idf 2 2) := by
  intro fox hen docs index tokens s
  have few : index.documents.size < 2 ^ 64 := by decide +kernel
  have hs : s.Admissible := ⟨zero_le_one, zero_le_one, le_rfl⟩
  have hfox : documentOf? docs "1" = some fox := rfl
  have hhen : documentOf? docs "2" = some hen := rfl
  have fit : CountsFit fox.tokens := by decide
  have hcount : ∀ token ∈ tokens, hen.tokens.count token ≤ fox.tokens.count token := by decide
  obtain ⟨hmore, hbound⟩ := Index.saturation_rewards docs few hs tokens
  have hle := hbound "2"
  have hl : listedIn docs "2" tokens = ["fox", "fox"] := by decide +kernel
  have htotal : (({} : Index).offerAll docs).totalDocs = 2 := by decide +kernel
  have hdf : (({} : Index).offerAll docs).docFreq "fox" = 2 := by decide +kernel
  rw [hl, htotal] at hle
  simp only [List.map_cons, List.map_nil, hdf, List.sum_cons, List.sum_nil, add_zero,
    Nat.cast_ofNat] at hle
  exact ⟨few, hs, hfox, hhen, fit, hcount, by decide,
    hmore fox hen hfox hhen fit hcount (by decide), hle⟩

end Concordance

import Concordance.Proofs.Index.Order
import Concordance.Ranking.Basic

namespace Concordance

variable {α : Type} [Scalar α] {index other : Index}

namespace Index.Alike

variable (h : index.Alike other) (tokens : List String) (id : String)
include h

theorem totalDocs : index.totalDocs = other.totalDocs := by
  rw [Index.totalDocs, h.stats, Index.totalDocs]

theorem termFrequencyScore : (Concordance.termFrequencyScore tokens index id : Score α) =
    Concordance.termFrequencyScore tokens other id := by
  unfold Concordance.termFrequencyScore
  simp only [h.termFrequency]

theorem tfIdfScore : (Concordance.tfIdfScore tokens index id : Score α) =
    Concordance.tfIdfScore tokens other id := by
  unfold Concordance.tfIdfScore
  simp only [h.termFrequency, h.docFreq, h.totalDocs]

theorem saturationScore (s : Saturation α) : s.score tokens index id = s.score tokens other id := by
  have hn : s.norm index id = s.norm other id := by
    unfold Saturation.norm Index.docLength?
    rw [h.stats]
  unfold Saturation.score
  simp only [h.termFrequency, h.docFreq, h.totalDocs, hn]

theorem blendScore (blend : Blend α) :
    blend.score tokens index id = blend.score tokens other id := by
  unfold Blend.score
  rw [h.termFrequencyScore, h.tfIdfScore]

theorem recencyScore (booster : Recency α) :
    booster.score tokens index id = booster.score tokens other id := by
  have ht : Recency.timestamp? index id = Recency.timestamp? other id := by
    unfold Recency.timestamp? Index.metadata?
    rw [h.documents]
  unfold Recency.score
  rw [ht]

end Index.Alike

namespace Ranking

mutual

theorem score_congr (h : index.Alike other) (tokens : List String) (id : String) :
    (ranking : Ranking α) → score tokens index id ranking = score tokens other id ranking
  | .termFrequency => by rw [score, score, h.termFrequencyScore]
  | .tfIdf => by rw [score, score, h.tfIdfScore]
  | .bm25 saturation => by rw [score, score, h.saturationScore]
  | .robust blend => by rw [score, score, h.blendScore]
  | .fusion parts => by rw [score, score, partScores_congr h tokens id parts]
  | .composite parts none => by rw [score, score, partScores_congr h tokens id parts]
  | .composite parts (some booster) => by
    rw [score, score, partScores_congr h tokens id parts, h.recencyScore]
  | .recency booster => by rw [score, score, h.recencyScore]

theorem partScores_congr (h : index.Alike other) (tokens : List String) (id : String) :
    (parts : List (α × Ranking α)) →
      partScores tokens index id parts = partScores tokens other id parts
  | [] => by rw [partScores, partScores]
  | (weight, ranking) :: rest => by
    rw [partScores, partScores, score_congr h tokens id ranking, partScores_congr h tokens id rest]

end

theorem scorer_congr (h : index.Alike other) (ranking : Ranking α) (tokens : List String)
    (id : String) : ranking.scorer tokens index id = ranking.scorer tokens other id :=
  score_congr h tokens id ranking

end Ranking

end Concordance

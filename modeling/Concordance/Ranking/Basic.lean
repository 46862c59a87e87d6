import Concordance.Number.Double
import Concordance.Ranking.Recency
import Concordance.Ranking.Terms

/-!
Rankings, and weighted sums of rankings.  A sum keeps the share of each ranking under the ranking's
name; a name that came before is told apart by its position.
-/

namespace Concordance

inductive Ranking (α : Type) where
  | termFrequency
  | tfIdf
  | bm25 (saturation : Saturation α)
  | robust (blend : Blend α)
  | fusion (parts : List (α × Ranking α))
  | composite (parts : List (α × Ranking α)) (booster : Option (Recency α))
  | recency (booster : Recency α)

namespace Ranking

variable {α : Type}

def name : Ranking α → String
  | .termFrequency => "tf"
  | .tfIdf => "tfidf"
  | .bm25 _ => "bm25"
  | .robust _ => "robust"
  | .fusion _ => "fusion"
  | .composite _ _ => "composite"
  | .recency _ => "recency"

/-- One key for each name: the name where it comes first, with its position where it comes again. -/
def keysOf (names : List String) : List String :=
  names.zipIdx.map fun (name, i) =>
    if (names.take i).contains name then name ++ "#" ++ toString i else name

def keys (parts : List (α × Ranking α)) : List String := keysOf (parts.map (·.2.name))

def addShare [Scalar α] (sum : Score α) (share : String × α × Score α) : Score α :=
  let weighted := share.2.1 * share.2.2.total
  { total := sum.total + weighted
    components := sum.components.insert share.1 weighted
    perTerm := mergePerTerm sum.perTerm share.2.2.perTerm }

def weightedSum [Scalar α] (keys : List String) (scores : List (α × Score α)) : Score α :=
  (keys.zip scores).foldl addShare ⟨Scalar.zero, ∅, ∅⟩

def addBoost [Scalar α] (sum : Score α) (boost : α) : Score α :=
  { sum with total := sum.total + boost, components := sum.components.insert "recency" boost }

mutual

def score [Scalar α] (tokens : List String) (index : Index) (id : String) : Ranking α → Score α
  | .termFrequency => termFrequencyScore tokens index id
  | .tfIdf => tfIdfScore tokens index id
  | .bm25 saturation => saturation.score tokens index id
  | .robust blend => blend.score tokens index id
  | .fusion parts => weightedSum (keys parts) (partScores tokens index id parts)
  | .composite parts none => weightedSum (keys parts) (partScores tokens index id parts)
  | .composite parts (some booster) =>
    addBoost (weightedSum (keys parts) (partScores tokens index id parts))
      (booster.score tokens index id).total
  | .recency booster => booster.score tokens index id

def partScores [Scalar α] (tokens : List String) (index : Index) (id : String) :
    List (α × Ranking α) → List (α × Score α)
  | [] => []
  | (weight, ranking) :: rest =>
    (weight, score tokens index id ranking) :: partScores tokens index id rest

end

def scorer [Scalar α] (ranking : Ranking α) : Scorer α := fun tokens index id =>
  score tokens index id ranking

end Ranking

/-- BM25 with a saturation that is a number from zero up and a normalization from zero to one. -/
def Saturation.ofDoubles (k1 b : Double) : Result (Saturation Double) :=
  if !(k1.value.isFinite && 0 ≤ k1.value) then .error (.config (.badSaturation k1.value))
  else if !(0 ≤ b.value && b.value ≤ 1) then .error (.config (.badNormalization b.value))
  else .ok ⟨k1, b⟩

def Recency.ofDoubles (decayDays maxBoost : Double) (now : Instant) : Result (Recency Double) :=
  if !(decayDays.value.isFinite && 0 < decayDays.value) then
    .error (.config (.badDecay decayDays.value))
  else .ok ⟨decayDays, maxBoost, now⟩

def Ranking.partsOf {α : Type} (rankings : List (Ranking α)) (weights : List α) :
    Result (List (α × Ranking α)) :=
  if rankings.length != weights.length then
    .error (.config (.weightCount rankings.length weights.length))
  else .ok (weights.zip rankings)

end Concordance

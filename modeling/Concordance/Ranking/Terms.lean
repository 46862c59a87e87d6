import Concordance.Ranking.Score

namespace Concordance

variable {α : Type} [Scalar α]

def termFrequencyScore : Scorer α := fun tokens index id =>
  tokens.foldl (fun score token =>
    let tf := index.termFrequency id token
    if tf == 0 then score
    else { score with
      total := score.total + Scalar.ofNat tf
      components := addAt score.components token (Scalar.ofNat tf) })
    ⟨Scalar.zero, ∅, ∅⟩

def smoothIdf (total df : Nat) : α :=
  Scalar.log ((Scalar.ofNat total + Scalar.one) / (Scalar.ofNat df + Scalar.one)) + Scalar.one

def tfIdfScore : Scorer α := fun tokens index id =>
  tokens.foldl (fun score token =>
    let df := index.docFreq token
    let tf := index.termFrequency id token
    if df == 0 || tf == 0 then score
    else
      let part := Scalar.ofNat tf * smoothIdf index.totalDocs df
      { score with
        total := score.total + part
        components := addAt score.components token part })
    ⟨Scalar.zero, ∅, ∅⟩

/-- How soon more occurrences stop to count, and how much the length of a document counts. -/
structure Saturation (α : Type) where
  k1 : α
  b : α

namespace Saturation

def standard : Saturation α :=
  ⟨Scalar.ofNat 3 / Scalar.ofNat 2, Scalar.ofNat 3 / Scalar.ofNat 4⟩

def idf (total df : α) : α :=
  Scalar.log ((total - df + Scalar.half) / (df + Scalar.half) + Scalar.one)

/-- The length of a document against the average, as far as it counts.  A document of unknown length
is average. -/
def norm (s : Saturation α) (index : Index) (id : String) : α :=
  let average : α := index.stats.averageLength
  let length : α := (index.docLength? id).elim average Scalar.ofNat
  Scalar.one - s.b + s.b * (length / average)

def part (s : Saturation α) (norm idf tf : α) : α :=
  idf * (tf * (s.k1 + Scalar.one)) / (tf + s.k1 * norm)

/-- Ranks by occurrences, with less and less for each further one and less in longer documents. -/
def score (s : Saturation α) : Scorer α := fun tokens index id =>
  let norm := s.norm index id
  let scored := tokens.foldl (fun (score : Score α) token =>
    let tf := index.termFrequency id token
    let df := index.docFreq token
    if tf == 0 || df == 0 then score
    else
      let weight := idf (Scalar.ofNat index.totalDocs) (Scalar.ofNat df)
      let part := s.part norm weight (Scalar.ofNat tf)
      { score with
        total := score.total + part
        perTerm := score.perTerm.insert token
          (Std.ExtTreeMap.ofList [("tf", Scalar.ofNat tf), ("df", Scalar.ofNat df),
            ("idf", weight), ("score", part)] compare) })
    ⟨Scalar.zero, ∅, ∅⟩
  { scored with
    components := Std.ExtTreeMap.ofList [("bm25", scored.total), ("k1", s.k1), ("b", s.b)] compare }

end Saturation

structure Blend (α : Type) where
  plain : α
  weighted : α

namespace Blend

def standard : Blend α := ⟨Scalar.ofNat 2 / Scalar.ofNat 5, Scalar.ofNat 3 / Scalar.ofNat 5⟩

def score (blend : Blend α) : Scorer α := fun tokens index id =>
  let plain := (termFrequencyScore tokens index id).total
  let weighted := (tfIdfScore tokens index id).total
  { total := blend.plain * plain + blend.weighted * weighted
    components := Std.ExtTreeMap.ofList [("tf", plain), ("tfidf", weighted)] compare }

end Blend

end Concordance

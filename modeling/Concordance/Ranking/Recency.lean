import Concordance.Ranking.Score
import Concordance.Time.Timestamp

namespace Concordance

/-- The time in which a boost falls by the factor `e`, the boost of a new document, and the time
from which ages count. -/
structure Recency (α : Type) where
  decayDays : α
  maxBoost : α
  now : Instant

namespace Recency

variable {α : Type} [Scalar α]

def standard (now : Instant) : Recency α := ⟨Scalar.ofNat 30, Scalar.one, now⟩

/-- The age of a document in whole milliseconds; a date in the future has none. -/
def ageMillis (r : Recency α) (timestamp : Instant) : Nat := (r.now.millisSince timestamp).toNat

def boost (r : Recency α) (timestamp : Instant) : α :=
  let days := Scalar.ofNat (r.ageMillis timestamp) / Scalar.ofNat 1000 / Scalar.ofNat 86400
  r.maxBoost * Scalar.exp (-days / r.decayDays)

/-- The date of a document, if its metadata have one that can be read. -/
def timestamp? (index : Index) (id : String) : Option Instant := do
  let metadata ← index.metadata? id
  let value ← metadata["timestamp"]?
  Timestamp.read? value

def score (r : Recency α) : Scorer α := fun _ index id =>
  let boost := ((timestamp? index id).map r.boost).getD Scalar.zero
  { total := boost, components := Std.ExtTreeMap.ofList [("recency", boost)] compare }

end Recency

end Concordance

import Concordance.Json.Fields
import Concordance.Number.Scalar

namespace Concordance

/-- What a word holds of a count. -/
def wordCount (n : Nat) : Nat := n % 0x10000000000000000

structure CorpusStats where
  lengths : Named Nat := ∅
  total : Nat := 0

namespace CorpusStats

def add (s : CorpusStats) (id : String) (length : Nat) : CorpusStats :=
  ⟨s.lengths.insert id length, wordCount (s.total + 1)⟩

def lengthSum (s : CorpusStats) : Nat :=
  wordCount (s.lengths.foldl (fun sum _ length => sum + length) 0)

/-- The average length; one if there is no document or no token, so that it can divide. -/
def averageLength {α : Type} [Scalar α] (s : CorpusStats) : α :=
  if s.total == 0 || s.lengthSum == 0 then Scalar.one
  else Scalar.ofNat s.lengthSum / Scalar.ofNat s.total

def toJson (s : CorpusStats) : Json :=
  .obj [("doc_lengths", .ofNamed (fun n : Nat => .int n) s.lengths), ("total_docs", .int s.total)]

def ofDraft? (d : Json.Draft) : Option CorpusStats := do
  let f ← Json.Fields.read? ["doc_lengths", "total_docs"] d
  let lengths ← f.need? 0 (·.named? (·.count?))
  let total ← f.need? 1 (·.count?)
  return ⟨lengths, total⟩

end CorpusStats

theorem wordCount_of_lt {n : Nat} (h : n < 0x10000000000000000) : wordCount n = n :=
  Nat.mod_eq_of_lt h

end Concordance

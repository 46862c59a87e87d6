import Concordance.Json.Fields
import Concordance.Text.Lowercase

namespace Concordance

structure StopWords where
  words : WordSet

namespace StopWords

def defaultWords : List String := ["the", "a", "an", "and", "or"]

def none : StopWords := ⟨∅⟩

def ofWords (words : List String) : StopWords :=
  ⟨Std.ExtTreeSet.ofList (words.map lowercase) compare⟩

def standard : StopWords := ofWords defaultWords

def contains (s : StopWords) (token : String) : Bool := s.words.contains token

def filter (s : StopWords) (tokens : List String) : List String :=
  tokens.filter fun token => !s.contains token

def removeFrom (s : StopWords) (words : WordSet) : WordSet :=
  words.filter fun word => !s.contains word

def toJson (s : StopWords) : Json := .arr (s.words.toList.map .str)

/-- Reads stop words as they are written, without a change of case. -/
def ofDraft? (d : Json.Draft) : Option StopWords :=
  (d.list? (·.text?)).map fun words => ⟨Std.ExtTreeSet.ofList words compare⟩

theorem mem_filter {s : StopWords} {tokens : List String} {token : String} :
    token ∈ s.filter tokens ↔ token ∈ tokens ∧ s.contains token = false := by
  simp [filter]

end StopWords

end Concordance

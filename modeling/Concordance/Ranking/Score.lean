import Concordance.Index.Inverted

namespace Concordance

structure Score (α : Type) where
  total : α
  components : Named α
  perTerm : Named (Named α) := ∅

abbrev Scorer (α : Type) := List String → Index → String → Score α

variable {α : Type}

def addAt [Scalar α] (values : Named α) (name : String) (x : α) : Named α :=
  values.alter name fun old => some (old.getD Scalar.zero + x)

/-- Adds named numbers to others; a name that is there already gets the new number. -/
def mergeNamed (old new : Named α) : Named α := old.insertMany new.toList

def mergePerTerm (old new : Named (Named α)) : Named (Named α) :=
  new.foldl (fun all token parts => all.alter token fun had =>
    some (mergeNamed (had.getD ∅) parts)) old

end Concordance

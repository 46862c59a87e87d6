import Concordance.Analysis.StopWords

namespace Concordance

structure Query where
  required : WordSet := ∅
  optional : WordSet := ∅
  excluded : WordSet := ∅
  phrases : List (List String) := []
  hasOr : Bool := false

namespace Query

def terms (q : Query) : WordSet := q.required.insertMany q.optional.toList

def phraseWords (q : Query) : WordSet := Std.ExtTreeSet.ofList q.phrases.flatten compare

def isEmpty (q : Query) : Bool :=
  q.required.isEmpty && q.optional.isEmpty && q.excluded.isEmpty && q.phrases.isEmpty

/-- The query without stop words; a phrase of nothing else is dropped. -/
def removeStopWords (q : Query) (s : StopWords) : Query where
  required := s.removeFrom q.required
  optional := s.removeFrom q.optional
  excluded := s.removeFrom q.excluded
  phrases := (q.phrases.map s.filter).filter fun phrase => !phrase.isEmpty
  hasOr := q.hasOr

def addPhrase (q : Query) (words : List String) : Query :=
  if words.isEmpty then q else { q with phrases := q.phrases ++ [words] }

theorem mem_terms {q : Query} {word : String} :
    word ∈ q.terms ↔ word ∈ q.required ∨ word ∈ q.optional := by
  simp [terms]

theorem mem_phraseWords {q : Query} {word : String} :
    word ∈ q.phraseWords ↔ ∃ phrase ∈ q.phrases, word ∈ phrase := by
  simp [phraseWords]

end Query

end Concordance

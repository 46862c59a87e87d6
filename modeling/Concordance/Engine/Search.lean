import Concordance.Engine.Basic
import Concordance.Ranking.Score

namespace Concordance

structure Hit (α : Type) where
  id : String
  score : Score α

def containsPhrase (tokens phrase : List String) : Bool :=
  !phrase.isEmpty && (windows phrase.length tokens).any (· == phrase)

def defaultLimit : Nat := 10

namespace Query

/-- The tokens to search for: the terms, or the words of phrases where there is no term at all,
without stop words. -/
def searchTokens (q : Query) (s : StopWords) : WordSet :=
  s.removeFrom (if q.terms.isEmpty then q.phraseWords else q.terms)

/-- Whether a document contains the words that the query asks for and none that it excludes. -/
def admits (q : Query) (index : Index) (id : String) : Bool :=
  !q.excluded.toList.any (index.contains id) &&
    (if q.hasOr then q.terms.toList.any (index.contains id)
      else q.required.toList.all (index.contains id))

def phrasesIn (q : Query) (tokens : List String) : Bool := q.phrases.all (containsPhrase tokens)

end Query

def candidates (index : Index) (tokens : List String) : WordSet :=
  Std.ExtTreeSet.ofList (tokens.flatMap fun token => (index.postingsOf token).toList.map (·.id))
    compare

def Hit.before {α : Type} [Scalar α] (a b : Hit α) : Bool :=
  match Scalar.order b.score.total a.score.total with
  | .lt => true
  | .gt => false
  | .eq => (compare a.id b.id).isLE

namespace Engine

variable {β : Type} {α : Type} [Scalar α]

/-- Whether a document has all phrases; without history that cannot be told unless there are
none. -/
def phrasesMatch? (e : Engine β) (q : Query) : Result (String → Bool) :=
  if q.phrases.isEmpty then .ok fun _ => true
  else match e.corpus? with
    | some c => .ok fun id => q.phrasesIn (c.tokens id)
    | none => .error .missingTokenHistory

def hits (e : Engine β) (score : Scorer α) (q : Query) (tokens : List String)
    (phrases : String → Bool) : List (Hit α) :=
  ((candidates e.index tokens).toList.filter fun id => q.admits e.index id && phrases id).map
    (fun id => ⟨id, score tokens e.index id⟩) |>.filter
    fun hit => !Scalar.isZero hit.score.total

/-- At most `limit` hits, the best first; documents that score zero are left out. -/
def search (e : Engine β) (score : Scorer α) (text : String) (limit : Nat) :
    Result (List (Hit α)) :=
  let tokens := ((Query.parse text).searchTokens e.config.stopWords).toList
  if tokens.isEmpty || limit == 0 then .ok []
  else do
    let q := e.parse text
    let phrases ← e.phrasesMatch? q
    return ((e.hits score q tokens phrases).mergeSort Hit.before).take limit

/-- Gives a hit an entry for every word of the query, also where the word contributed nothing. -/
def explainHit (words : List String) (hit : Hit α) : Hit α :=
  { hit with
    score := { hit.score with
      components := words.foldl (fun m word => m.insertIfNew word Scalar.zero) hit.score.components
      perTerm := words.foldl (fun m word => m.insertIfNew word ∅) hit.score.perTerm } }

def explain (e : Engine β) (score : Scorer α) (text : String) (limit : Nat) :
    Result (List (Hit α)) :=
  (e.search score text limit).map fun hits => hits.map (explainHit (queryWords text))

end Engine

end Concordance

import Concordance.Query.Basic
import Concordance.Text.Words

/-!
Reading queries.  Words are separated by blanks and lowercased.  A word in front of which `or`
stands is optional, a word after a minus sign is excluded, every other word is required; double
quotes enclose a phrase.
-/

namespace Concordance

def stripFront? (c : Char) : List Char → Option (List Char)
  | d :: cs => if d == c then some cs else none
  | [] => none

def stripBack? (c : Char) (cs : List Char) : Option (List Char) :=
  (stripFront? c cs.reverse).map List.reverse

def isQuote (c : Char) : Bool := c == '"'

/-- The query read so far, whether an `or` waits for its word, and the words of the phrase that is
open. -/
structure QueryReader where
  query : Query := {}
  afterOr : Bool := false
  phrase : Option (List String) := none

namespace QueryReader

def pushWord (phrase : List String) (word : List Char) : List String :=
  if word.isEmpty then phrase else phrase ++ [String.ofList word]

def addTerm (r : QueryReader) (word : List Char) : QueryReader :=
  if word.isEmpty then r
  else
    let word := String.ofList word
    if r.afterOr then
      { r with query.optional := r.query.optional.insert word, afterOr := false }
    else { r with query.required := r.query.required.insert word }

def exclude (r : QueryReader) (word : List Char) : QueryReader :=
  if word.isEmpty then r
  else { r with query.excluded := r.query.excluded.insert (String.ofList word) }

def inside (r : QueryReader) (phrase : List String) (word : List Char) : QueryReader :=
  match stripBack? '"' word with
  | some last => { r with query := r.query.addPhrase (pushWord phrase last), phrase := none }
  | none => { r with phrase := some (pushWord phrase word) }

/-- Reads a word that begins with a quote, without that quote: a phrase of one word, or the first
word of a longer one. -/
def openPhrase (r : QueryReader) (rest : List Char) : QueryReader :=
  match stripBack? '"' rest with
  | some single => { r with query := r.query.addPhrase (pushWord [] single) }
  | none => { r with phrase := some (pushWord [] rest) }

def outside (r : QueryReader) (word : List Char) : QueryReader :=
  if word == ['o', 'r'] then { r with query.hasOr := true, afterOr := true }
  else match stripFront? '"' word with
    | some rest => r.openPhrase rest
    | none =>
      match stripFront? '-' word with
      | some rest => r.exclude (trimBoth isQuote rest)
      | none => r.addTerm (trimBoth isQuote word)

def step (r : QueryReader) (word : List Char) : QueryReader :=
  match r.phrase with
  | some phrase => r.inside phrase word
  | none => r.outside word

def finish (r : QueryReader) : Query := r.query.addPhrase (r.phrase.getD [])

end QueryReader

def queryWords (text : String) : List String := (blankWords text).map lowercase

def Query.parse (text : String) : Query :=
  ((queryWords text).foldl (fun r word => r.step word.toList) ({} : QueryReader)).finish

end Concordance

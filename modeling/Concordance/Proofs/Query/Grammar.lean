import Concordance.Proofs.Query.Wording
import Concordance.Proofs.Result
import Mathlib.Data.List.Basic

/-!
The grammar of queries.  The words of a query divide into words outside phrases and phrases in one way
only.  What the query asks for is then said of these parts as they stand, without a reader that goes
from word to word.
-/

namespace Concordance

/-- A part of a query: a word outside phrases, or the words of a phrase, of which the first has the
opening quote and the last, if the phrase is closed, the closing one. -/
inductive QueryPart where
  | outside (word : String)
  | phrase (first : String) (inner : List String) (last : Option String)
  deriving DecidableEq, Repr

/-- A quote in front opens a phrase unless the rest of the word closes it. -/
def OpensPhrase (word : String) : Prop :=
  word.toList.head? = some '"' ∧ word.toList.tail.getLast? ≠ some '"'

def ClosesPhrase (word : String) : Prop := word.toList.getLast? = some '"'

instance (word : String) : Decidable (OpensPhrase word) := inferInstanceAs (Decidable (_ ∧ _))

instance (word : String) : Decidable (ClosesPhrase word) := inferInstanceAs (Decidable (_ = _))

/-- How words divide into parts.  A phrase ends at the first word that closes it, or with the query. -/
inductive Divides : List String → List QueryPart → Prop where
  | nil : Divides [] []
  | outside {word : String} {rest : List String} {parts : List QueryPart} :
      ¬ OpensPhrase word → Divides rest parts → Divides (word :: rest) (.outside word :: parts)
  | closed {first last : String} {inner rest : List String} {parts : List QueryPart} :
      OpensPhrase first → (∀ word ∈ inner, ¬ ClosesPhrase word) → ClosesPhrase last →
      Divides rest parts →
      Divides (first :: (inner ++ last :: rest)) (.phrase first inner (some last) :: parts)
  | unclosed {first : String} {inner : List String} :
      OpensPhrase first → (∀ word ∈ inner, ¬ ClosesPhrase word) →
      Divides (first :: inner) [.phrase first inner none]

namespace QueryPart

def outside? : QueryPart → Option String
  | .outside word => some word
  | .phrase .. => none

def wordsOf (words : List (List Char)) : List String :=
  (words.filter fun word => word ≠ []).map String.ofList

/-- The words of a phrase without its quotes.  A word outside phrases is one by itself if it begins
with a quote; it then ends with another. -/
def phraseWords : QueryPart → List String
  | .outside word =>
    if word.toList.head? = some '"' then wordsOf [word.toList.tail.dropLast] else []
  | .phrase first inner last =>
    wordsOf (first.toList.tail :: inner.map String.toList ++
      last.toList.map fun word => word.toList.dropLast)

end QueryPart

def outsideWords (parts : List QueryPart) : List String := parts.filterMap QueryPart.outside?

def trimQuotes (word : String) : String := String.ofList (trimBoth isQuote word.toList)

/-- A word outside phrases that is searched for. -/
def IsSought (word : String) : Prop :=
  word ≠ "or" ∧ word.toList.head? ≠ some '"' ∧ word.toList.head? ≠ some '-' ∧ trimQuotes word ≠ ""

instance (word : String) : Decidable (IsSought word) :=
  inferInstanceAs (Decidable (_ ∧ _ ∧ _ ∧ _))

/-- Whether the last of these words that is an `or` or is searched for is an `or`. -/
def EndsInOr (before : List String) : Prop :=
  before.reverse.find? (fun word => word = "or" ∨ IsSought word) = some "or"

/-- What a query of these parts asks for. -/
structure Query.Reads (q : Query) (parts : List QueryPart) : Prop where
  hasOr : q.hasOr = true ↔ "or" ∈ outsideWords parts
  excluded : ∀ word, word ∈ q.excluded ↔
    word ≠ "" ∧ ∃ rest, "-" ++ rest ∈ outsideWords parts ∧ trimQuotes rest = word
  optional : ∀ word, word ∈ q.optional ↔ ∃ before sought after,
    outsideWords parts = before ++ sought :: after ∧ IsSought sought ∧ trimQuotes sought = word ∧
      EndsInOr before
  required : ∀ word, word ∈ q.required ↔ ∃ before sought after,
    outsideWords parts = before ++ sought :: after ∧ IsSought sought ∧ trimQuotes sought = word ∧
      ¬ EndsInOr before
  phrases : q.phrases = (parts.map QueryPart.phraseWords).filter fun words => words ≠ []

section Divides

variable {words : List String} {parts : List QueryPart}

theorem exists_divides (words : List String) : ∃ parts, Divides words parts := by
  -- What follows a phrase is shorter than the words from its first one on.
  induction hn : words.length using Nat.strongRecOn generalizing words with
  | ind n ih =>
    cases words with
    | nil => exact ⟨_, .nil⟩
    | cons first rest =>
      simp only [List.length_cons] at hn
      by_cases ho : OpensPhrase first
      · cases hf : rest.find? fun word => ClosesPhrase word with
        | some last =>
          obtain ⟨hl, inner, behind, rfl, hi⟩ := List.find?_eq_some_iff_append.1 hf
          simp only [List.length_append, List.length_cons] at hn
          obtain ⟨parts, hp⟩ := ih behind.length (by omega) behind rfl
          exact ⟨_, .closed ho (by simpa using hi) (by simpa using hl) hp⟩
        | none => exact ⟨_, .unclosed ho (by simpa using hf)⟩
      · obtain ⟨parts, hp⟩ := ih rest.length (by omega) rest rfl
        exact ⟨_, .outside ho hp⟩

theorem split_at_closing {inner inner' rest rest' : List String} {last last' : String}
    (hi : ∀ word ∈ inner, ¬ ClosesPhrase word) (hl : ClosesPhrase last)
    (hi' : ∀ word ∈ inner', ¬ ClosesPhrase word) (hl' : ClosesPhrase last')
    (h : inner ++ last :: rest = inner' ++ last' :: rest') :
    inner = inner' ∧ last = last' ∧ rest = rest' := by
  have ht := congrArg (List.takeWhile fun word => ¬ ClosesPhrase word) h
  rw [List.takeWhile_append_of_pos (by simpa using hi),
    List.takeWhile_append_of_pos (by simpa using hi')] at ht
  have ht : inner = inner' := by simpa [hl, hl'] using ht
  subst ht
  simpa using h

theorem Divides.unique (h : Divides words parts) {others : List QueryPart}
    (ho : Divides words others) : parts = others := by
  induction h generalizing others with
  | nil =>
    cases ho
    rfl
  | @outside word rest parts hn _ ih =>
    cases ho with
    | outside _ hd => rw [ih hd]
    | closed hf => exact absurd hf hn
    | unclosed hf => exact absurd hf hn
  | @closed first last inner rest parts hf hi hl _ ih =>
    generalize hw : inner ++ last :: rest = words at ho
    cases ho with
    | outside hn => exact absurd hf hn
    | @closed _ last' inner' rest' parts' _ hi' hl' hd =>
      obtain ⟨rfl, rfl, rfl⟩ := split_at_closing hi hl hi' hl' hw
      rw [ih hd]
    | unclosed _ hi' =>
      subst hw
      exact absurd hl (hi' last (by simp))
  | @unclosed first inner hf hi =>
    cases ho with
    | outside hn => exact absurd hf hn
    | closed _ _ hl => exact absurd hl (hi _ (by simp))
    | unclosed => rfl

end Divides

namespace QueryReader

open QueryPart

variable {r : QueryReader}

theorem pushWord_eq (words : List String) (word : List Char) :
    pushWord words word = words ++ wordsOf [word] := by
  cases word <;> simp [pushWord, wordsOf]

theorem wordsOf_append (words others : List (List Char)) :
    wordsOf (words ++ others) = wordsOf words ++ wordsOf others := by
  simp [wordsOf]

def readPart (r : QueryReader) : QueryPart → QueryReader
  | .outside word => r.outside word.toList
  | part => { r with query := r.query.addPhrase part.phraseWords }

theorem stripFront?_of_head? {c : Char} {word : List Char} (h : word.head? = some c) :
    stripFront? c word = some word.tail :=
  stripFront?_eq_some.2 (List.eq_cons_of_mem_head? h)

theorem stripBack?_of_getLast? {c : Char} {word : List Char} (h : word.getLast? = some c) :
    stripBack? c word = some word.dropLast :=
  stripBack?_eq_some.2 (List.dropLast_append_getLast? c h).symm

theorem outside_phrase {word : String} (hn : ¬ OpensPhrase word) (h : r.phrase = none) :
    (r.outside word.toList).phrase = none := by
  unfold QueryReader.outside
  split
  · exact h
  · split
    next rest hq =>
      obtain ⟨hh, ht⟩ : word.toList.head? = some '"' ∧ word.toList.tail = rest := by
        simp [stripFront?_eq_some.1 hq]
      have hc : word.toList.tail.getLast? = some '"' :=
        Decidable.byContradiction fun hc => hn ⟨hh, hc⟩
      rw [← ht, openPhrase, stripBack?_of_getLast? hc]
      exact h
    · split
      · unfold exclude
        split <;> exact h
      · unfold addTerm
        split
        · exact h
        · dsimp only
          split <;> exact h

theorem foldl_inside {inner : List String} (hi : ∀ word ∈ inner, ¬ ClosesPhrase word)
    (q : Query) (afterOr : Bool) (words : List String) :
    inner.foldl (fun (r : QueryReader) word => r.step word.toList) ⟨q, afterOr, some words⟩ =
      ⟨q, afterOr, some (words ++ wordsOf (inner.map String.toList))⟩ := by
  induction inner generalizing words with
  | nil => simp [wordsOf]
  | cons word inner ih =>
    have hs : (⟨q, afterOr, some words⟩ : QueryReader).step word.toList =
        ⟨q, afterOr, some (pushWord words word.toList)⟩ := by
      show QueryReader.inside _ words _ = _
      rw [QueryReader.inside, stripBack?_eq_none.2 (hi word (by simp))]
    rw [List.foldl_cons, hs, ih fun other ho => hi other (by simp [ho]), pushWord_eq,
      List.append_assoc, ← wordsOf_append]
    rfl

theorem step_opening {first : String} (h : r.phrase = none) (ho : OpensPhrase first) :
    r.step first.toList = ⟨r.query, r.afterOr, some (wordsOf [first.toList.tail])⟩ := by
  have hw : first.toList ≠ ['o', 'r'] := by
    intro he
    have hf := ho.1
    rw [he] at hf
    cases hf
  rw [step_of_phrase_eq_none h]
  simp [QueryReader.outside, hw, stripFront?_of_head? ho.1, openPhrase, stripBack?_eq_none.2 ho.2,
    pushWord_eq]

theorem foldl_phrase {first last : String} {inner : List String} (h : r.phrase = none)
    (hf : OpensPhrase first) (hi : ∀ word ∈ inner, ¬ ClosesPhrase word) (hl : ClosesPhrase last) :
    (first :: (inner ++ [last])).foldl (fun r word => r.step word.toList) r =
      r.readPart (.phrase first inner (some last)) := by
  have hs : ∀ words, (⟨r.query, r.afterOr, some words⟩ : QueryReader).step last.toList =
      ⟨r.query.addPhrase (words ++ wordsOf [last.toList.dropLast]), r.afterOr, none⟩ := by
    intro words
    show QueryReader.inside _ words _ = _
    rw [QueryReader.inside, stripBack?_of_getLast? hl]
    simp only [pushWord_eq]
  rw [List.foldl_cons, step_opening h hf, List.foldl_append, foldl_inside hi, List.foldl_cons, hs,
    List.foldl_nil, ← wordsOf_append, ← wordsOf_append]
  show (⟨_, r.afterOr, none⟩ : QueryReader) = ⟨_, r.afterOr, r.phrase⟩
  rw [h]
  rfl

/-- Reading word by word comes to the same as reading part by part. -/
theorem foldl_step_finish {words : List String} {parts : List QueryPart} (h : Divides words parts)
    (hp : r.phrase = none) :
    (words.foldl (fun r word => r.step word.toList) r).finish =
      (parts.foldl readPart r).query := by
  induction h generalizing r with
  | nil => exact finish_of_phrase_eq_none hp
  | @outside word rest parts hn _ ih =>
    rw [List.foldl_cons, step_of_phrase_eq_none hp]
    exact ih (outside_phrase hn hp)
  | @closed first last inner rest parts hf hi hl _ ih =>
    have hw : first :: (inner ++ last :: rest) = first :: (inner ++ [last]) ++ rest := by simp
    rw [hw, List.foldl_append, foldl_phrase hp hf hi hl]
    exact ih hp
  | @unclosed first inner hf hi =>
    rw [List.foldl_cons, step_opening hp hf, foldl_inside hi, ← wordsOf_append]
    show r.query.addPhrase (wordsOf ([first.toList.tail] ++ _)) = r.query.addPhrase (wordsOf _)
    simp

theorem foldl_step_phrase {words : List String} {parts : List QueryPart} (h : Divides words parts)
    (hp : r.phrase = none) :
    (words.foldl (fun r word => r.step word.toList) r).phrase = none ↔
      ∀ first inner, .phrase first inner none ∉ parts := by
  induction h generalizing r with
  | nil => simp [hp]
  | @outside word rest parts hn _ ih =>
    rw [List.foldl_cons, step_of_phrase_eq_none hp, ih (outside_phrase hn hp)]
    simp
  | @closed first last inner rest parts hf hi hl _ ih =>
    have hw : first :: (inner ++ last :: rest) = first :: (inner ++ [last]) ++ rest := by simp
    have hr : (r.readPart (.phrase first inner (some last))).phrase = none := hp
    rw [hw, List.foldl_append, foldl_phrase hp hf hi hl, ih hr]
    simp
  | @unclosed first inner hf hi =>
    rw [List.foldl_cons, step_opening hp hf, foldl_inside hi]
    simp

end QueryReader

theorem not_isSought_or : ¬ IsSought "or" := fun h => h.1 rfl

theorem endsInOr_concat {words : List String} {word : String} :
    EndsInOr (words ++ [word]) ↔ word = "or" ∨ ¬ IsSought word ∧ EndsInOr words := by
  unfold EndsInOr
  rw [List.reverse_append, List.reverse_singleton, List.singleton_append, List.find?_cons]
  by_cases ho : word = "or"
  · simp [ho]
  · by_cases hs : IsSought word <;> simp [ho, hs]

theorem outsideWords_concat (parts : List QueryPart) (word : String) :
    outsideWords (parts ++ [.outside word]) = outsideWords parts ++ [word] := by
  simp [outsideWords, QueryPart.outside?]

theorem outsideWords_phrase (parts : List QueryPart) (first : String) (inner : List String)
    (last : Option String) :
    outsideWords (parts ++ [.phrase first inner last]) = outsideWords parts := by
  simp [outsideWords, QueryPart.outside?]

namespace Query

variable {q grown : Query} {parts : List QueryPart}

theorem addPhrase_eq (q : Query) (words : List String) :
    q.addPhrase words = { q with phrases := q.phrases ++ [words].filter fun words => words ≠ [] } := by
  unfold Query.addPhrase
  by_cases hw : words = [] <;> simp [hw]

theorem Reads.concat (h : q.Reads parts) {word : String}
    (hasOr : grown.hasOr = true ↔ q.hasOr = true ∨ word = "or")
    (excluded : ∀ other, other ∈ grown.excluded ↔ other ∈ q.excluded ∨
      other ≠ "" ∧ ∃ rest, "-" ++ rest = word ∧ trimQuotes rest = other)
    (optional : ∀ other, other ∈ grown.optional ↔ other ∈ q.optional ∨
      IsSought word ∧ trimQuotes word = other ∧ EndsInOr (outsideWords parts))
    (required : ∀ other, other ∈ grown.required ↔ other ∈ q.required ∨
      IsSought word ∧ trimQuotes word = other ∧ ¬ EndsInOr (outsideWords parts))
    (phrases : grown.phrases = (q.addPhrase (QueryPart.outside word).phraseWords).phrases) :
    grown.Reads (parts ++ [.outside word]) where
  hasOr := by
    rw [hasOr, h.hasOr, outsideWords_concat]
    simp [eq_comm]
  excluded other := by
    rw [excluded, h.excluded, outsideWords_concat, ← and_or_left]
    simp only [List.mem_append, List.mem_singleton, or_and_right, exists_or]
  optional other := by
    rw [optional, h.optional, outsideWords_concat, exists_split_concat]
  required other := by
    rw [required, h.required, outsideWords_concat, exists_split_concat]
  phrases := by rw [phrases, List.map_append, List.filter_append, ← h.phrases, addPhrase_eq]; rfl

theorem Reads.phrase (h : q.Reads parts) (first : String) (inner : List String)
    (last : Option String) :
    (q.addPhrase (QueryPart.phrase first inner last).phraseWords).Reads
      (parts ++ [.phrase first inner last]) := by
  have ho := outsideWords_phrase parts first inner last
  rw [addPhrase_eq]
  refine ⟨ho ▸ h.hasOr, ho ▸ h.excluded, ho ▸ h.optional, ho ▸ h.required, ?_⟩
  rw [List.map_append, List.filter_append, ← h.phrases]
  rfl

end Query

theorem eq_or_iff {word : String} : word = "or" ↔ word.toList = ['o', 'r'] :=
  ⟨fun h => h ▸ rfl, fun h => String.toList_injective (h.trans rfl)⟩

theorem minus_append_eq_iff {rest word : String} :
    "-" ++ rest = word ↔ word.toList = '-' :: rest.toList := by
  rw [← String.toList_inj, String.toList_append, eq_comm]
  rfl

namespace QueryReader

variable {r : QueryReader} {parts : List QueryPart} {word : String}

/-- What reading part by part keeps: the query is that of the parts read, and an `or` waits if the
words outside phrases end in one. -/
structure Follows (r : QueryReader) (parts : List QueryPart) : Prop where
  reads : r.query.Reads parts
  afterOr : r.afterOr = true ↔ EndsInOr (outsideWords parts)

theorem follows_nil : Follows {} [] where
  reads := ⟨by simp [outsideWords], by simp [outsideWords], by simp [outsideWords],
    by simp [outsideWords], rfl⟩
  afterOr := by simp [EndsInOr, outsideWords]

theorem Follows.or (h : r.Follows parts) :
    (r.outside "or".toList).Follows (parts ++ [.outside "or"]) where
  reads := by
    have hn : ∀ rest, "-" ++ rest ≠ "or" := fun rest he => by
      simpa using congrArg String.toList he
    exact h.reads.concat (by simp [outside]) (by simp [outside, hn])
      (by simp [outside, not_isSought_or]) (by simp [outside, not_isSought_or]) rfl
  afterOr := by simp [outsideWords_concat, endsInOr_concat, outside]

theorem Follows.quoted (h : r.Follows parts) (hq : word.toList.head? = some '"')
    (hn : ¬ OpensPhrase word) : (r.outside word.toList).Follows (parts ++ [.outside word]) := by
  have hc : word.toList.tail.getLast? = some '"' := Decidable.byContradiction fun hc => hn ⟨hq, hc⟩
  have ho : word ≠ "or" := fun he => by simp [he] at hq
  have hm : ∀ rest, "-" ++ rest ≠ word := fun rest he => by
    simp [minus_append_eq_iff.1 he] at hq
  have hs : ¬ IsSought word := fun hs => hs.2.1 hq
  have hr : r.outside word.toList =
      { r with query := r.query.addPhrase (QueryPart.outside word).phraseWords } := by
    have hw : word.toList ≠ ['o', 'r'] := fun he => ho (eq_or_iff.2 he)
    simp [outside, hw, stripFront?_of_head? hq, openPhrase, stripBack?_of_getLast? hc, pushWord_eq,
      QueryPart.phraseWords, hq]
  rw [hr]
  constructor
  · rw [Query.addPhrase_eq]
    exact h.reads.concat (by simp [ho]) (by simp [hm]) (by simp [hs]) (by simp [hs])
      (by rw [Query.addPhrase_eq])
  · simpa [outsideWords_concat, endsInOr_concat, ho, hs] using h.afterOr

theorem Follows.excluded (h : r.Follows parts) {rest : String}
    (hm : word.toList = '-' :: rest.toList) :
    (r.outside word.toList).Follows (parts ++ [.outside word]) := by
  have ho : word ≠ "or" := fun he => by simp [he] at hm
  have hs : ¬ IsSought word := fun hs => hs.2.2.1 (by rw [hm]; rfl)
  have hr : r.outside word.toList = r.exclude (trimQuotes rest).toList := by
    simp [hm, outside, stripFront?, trimQuotes]
  have hp : (QueryPart.outside word).phraseWords = [] := by simp [QueryPart.phraseWords, hm]
  have hw : ∀ other, other ≠ "" ∧ (∃ rest, "-" ++ rest = word ∧ trimQuotes rest = other) ↔
      trimQuotes rest ≠ "" ∧ trimQuotes rest = other := by
    intro other
    simp only [minus_append_eq_iff, hm, List.cons.injEq, true_and, String.toList_inj,
      exists_eq_left']
    constructor
    · rintro ⟨hn, rfl⟩
      exact ⟨hn, rfl⟩
    · rintro ⟨hn, rfl⟩
      exact ⟨hn, rfl⟩
  rw [hr, exclude]
  by_cases he : trimQuotes rest = ""
  · rw [if_pos (by simp [he])]
    constructor
    · exact h.reads.concat (by simp [ho]) (by simp [hw, he]) (by simp [hs]) (by simp [hs])
        (by rw [hp]; rfl)
    · simpa [outsideWords_concat, endsInOr_concat, ho, hs] using h.afterOr
  · rw [if_neg (by simpa using he), String.ofList_toList]
    constructor
    · refine h.reads.concat (by simp [ho]) (fun other => ?_) (by simp [hs]) (by simp [hs])
        (by rw [hp]; rfl)
      rw [hw]
      simp [he, or_comm]
    · simpa [outsideWords_concat, endsInOr_concat, ho, hs] using h.afterOr

theorem Follows.term (h : r.Follows parts) (ho : word ≠ "or") (hq : word.toList.head? ≠ some '"')
    (hm : word.toList.head? ≠ some '-') :
    (r.outside word.toList).Follows (parts ++ [.outside word]) := by
  have hr : r.outside word.toList = r.addTerm (trimQuotes word).toList := by
    rw [trimQuotes, String.toList_ofList]
    exact outside_eq_addTerm (fun he => ho (eq_or_iff.2 he)) hq hm r
  have hp : (QueryPart.outside word).phraseWords = [] := by simp [QueryPart.phraseWords, hq]
  have hn : ∀ rest, "-" ++ rest ≠ word := fun rest he =>
    hm (by rw [minus_append_eq_iff.1 he]; rfl)
  rw [hr, addTerm]
  by_cases he : trimQuotes word = ""
  · have hs : ¬ IsSought word := fun hs => hs.2.2.2 he
    rw [if_pos (by simp [he])]
    constructor
    · exact h.reads.concat (by simp [ho]) (by simp [hn]) (by simp [hs]) (by simp [hs])
        (by rw [hp]; rfl)
    · simpa [outsideWords_concat, endsInOr_concat, ho, hs] using h.afterOr
  · have hs : IsSought word := ⟨ho, hq, hm, he⟩
    have ha := h.afterOr
    rw [if_neg (by simpa using he), String.ofList_toList]
    dsimp only
    split
    next hb =>
      have hb := ha.1 hb
      constructor
      · exact h.reads.concat (by simp [ho]) (by simp [hn]) (by simp [hs, hb, or_comm])
          (by simp [hb]) (by rw [hp]; rfl)
      · simp [outsideWords_concat, endsInOr_concat, ho, hs]
    next hb =>
      have hb' : ¬ EndsInOr (outsideWords parts) := fun hc => hb (ha.2 hc)
      constructor
      · exact h.reads.concat (by simp [ho]) (by simp [hn]) (by simp [hb'])
          (by simp [hs, hb', or_comm]) (by rw [hp]; rfl)
      · simpa [outsideWords_concat, endsInOr_concat, ho, hs] using hb

theorem Follows.readPart (h : r.Follows parts) {part : QueryPart}
    (hn : ∀ word, part = .outside word → ¬ OpensPhrase word) :
    (r.readPart part).Follows (parts ++ [part]) := by
  cases part with
  | outside word =>
    show (r.outside word.toList).Follows _
    by_cases ho : word = "or"
    · subst ho
      exact h.or
    · by_cases hq : word.toList.head? = some '"'
      · exact h.quoted hq (hn word rfl)
      · by_cases hm : word.toList.head? = some '-'
        · have hr : word.toList = '-' :: (String.ofList word.toList.tail).toList := by
            rw [String.toList_ofList]
            exact List.eq_cons_of_mem_head? hm
          exact h.excluded hr
        · exact h.term ho hq hm
  | phrase first inner last =>
    refine ⟨h.reads.phrase first inner last, ?_⟩
    rw [outsideWords_phrase]
    exact h.afterOr

end QueryReader

theorem Divides.not_opensPhrase {words : List String} {parts : List QueryPart}
    (h : Divides words parts) : ∀ word, .outside word ∈ parts → ¬ OpensPhrase word := by
  induction h with
  | nil => simp
  | outside hn _ ih => simpa using ⟨hn, ih⟩
  | closed _ _ _ _ ih => simpa using ih
  | unclosed => simp

theorem QueryReader.Follows.foldl {r : QueryReader} {parts : List QueryPart} (h : r.Follows parts)
    {more : List QueryPart} (hn : ∀ word, .outside word ∈ more → ¬ OpensPhrase word) :
    (more.foldl QueryReader.readPart r).Follows (parts ++ more) := by
  induction more generalizing r parts with
  | nil => simpa using h
  | cons part more ih =>
    have hp : ∀ word, part = .outside word → ¬ OpensPhrase word :=
      fun word he => hn word (by simp [he])
    simpa using ih (h.readPart hp) fun word hm => hn word (by simp [hm])

/-- The words of a query divide into words outside phrases and phrases in one way, and the query asks
for what these parts say: whether an `or` stands outside phrases, which words behind a minus sign are
excluded, which words are optional because an `or` stands nearest in front of them and which are
required, and what the phrases are. -/
theorem Query.parse_reads_parts (text : String) :
    ∃ parts, (∀ others, Divides (queryWords text) others ↔ others = parts) ∧
      (Query.parse text).Reads parts := by
  obtain ⟨parts, hd⟩ := exists_divides (queryWords text)
  refine ⟨parts, fun others => ⟨fun ho => ho.unique hd, fun he => he ▸ hd⟩, ?_⟩
  have hf := QueryReader.follows_nil.foldl hd.not_opensPhrase
  rw [Query.parse, QueryReader.foldl_step_finish hd rfl]
  exact hf.reads

end Concordance

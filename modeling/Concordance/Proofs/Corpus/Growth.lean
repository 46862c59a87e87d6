import Concordance.Corpus.Basic
import Concordance.Proofs.Index.Contents

/-!
Growth of a corpus.  Whatever is added, in whichever order, and whatever the subscribers answer, the
index and the history describe the same documents: those whose identifier was new.
-/

namespace Concordance

def accept (docs : List Document) (d : Document) : List Document :=
  if d.id ∈ docs.map Document.id then docs else docs ++ [d]

/-- The documents whose identifier no earlier one of them has. -/
def firsts (docs : List Document) : List Document := docs.foldl accept []

inductive CorpusEvent (β : Type) where
  | add (d : Document)
  | subscribe (subscriber : β)
  | unsubscribe (id : Nat)

def CorpusEvent.document? {β : Type} : CorpusEvent β → Option Document
  | .add d => some d
  | _ => none

namespace Corpus

variable {β : Type}

section Run

variable {m : Type → Type} [Monad m]

def handle (react : React m β) (c : Corpus β) : CorpusEvent β → m (Corpus β)
  | .add d => Prod.fst <$> c.add react d.id d.tokens d.metadata
  | .subscribe subscriber => pure (c.subscribe subscriber).1
  | .unsubscribe id => pure (c.unsubscribe id).1

def run (react : React m β) (c : Corpus β) (events : List (CorpusEvent β)) : m (Corpus β) :=
  events.foldlM (handle react) c

end Run

theorem record_eq (c : Corpus β) (id : String) (tokens : List String) (metadata : Record) :
    c.record id tokens metadata =
      if c.index.hasDocument id = true then .error (.duplicateDocument id)
      else .ok { c with
        index := c.index.insert id tokens metadata
        history := c.history.insert id tokens } := by
  unfold record Index.add
  split <;> rfl

theorem record_eq_ok {c grown : Corpus β} {id : String} {tokens : List String} {metadata : Record}
    (h : c.record id tokens metadata = .ok grown) :
    ¬ c.index.hasDocument id = true ∧
      grown = { c with
        index := c.index.insert id tokens metadata
        history := c.history.insert id tokens } := by
  rw [record_eq] at h
  split at h
  · cases h
  next hn =>
    cases h
    exact ⟨hn, rfl⟩

structure Holds (c : Corpus β) (docs : List Document) : Prop where
  index : c.index.Holds docs
  history : ∀ id : String, c.history[id]? = (documentOf? docs id).map Document.tokens

theorem holds_nil : Holds ({} : Corpus β) [] :=
  ⟨Index.holds_nil, fun _ => by simp [documentOf?]⟩

section Record

variable {c : Corpus β} {docs : List Document} {d : Document}

theorem Holds.tokens (h : c.Holds docs) (id : String) :
    c.tokens id = ((documentOf? docs id).map Document.tokens).getD [] := by
  rw [Corpus.tokens, Std.ExtTreeMap.getD_eq_getD_getElem?, h.history]

theorem record_taken (h : c.Holds docs) (hd : d.id ∈ docs.map Document.id) :
    c.record d.id d.tokens d.metadata = .error (.duplicateDocument d.id) := by
  rw [record_eq, if_pos ((h.index.hasDocument d.id).2 hd)]

theorem record_new (h : c.Holds docs) (hd : d.id ∉ docs.map Document.id) :
    ∃ grown : Corpus β, c.record d.id d.tokens d.metadata = .ok grown ∧
      grown.Holds (docs ++ [d]) ∧ grown.signal = c.signal := by
  have hn : ¬ c.index.hasDocument d.id = true := fun ht => hd ((h.index.hasDocument d.id).1 ht)
  let grown : Corpus β := { c with
    index := c.index.insert d.id d.tokens d.metadata
    history := c.history.insert d.id d.tokens }
  have hg : ∀ id : String,
      grown.history[id]? = (documentOf? (docs ++ [d]) id).map Document.tokens := by
    intro id
    rw [Std.ExtTreeMap.getElem?_insert, documentOf?_append _ _ _ hd, h.history]
    by_cases he : d.id = id <;> simp [he]
  exact ⟨grown, by rw [record_eq, if_neg hn], ⟨h.index.insert d hd, hg⟩, rfl⟩

end Record

section State

variable {σ : Type} (react : React (StateM σ) β)

/-- An addition takes the document in or leaves all as it was, whatever the subscribers answer. -/
theorem Holds.add {c : Corpus β} {docs : List Document} (h : c.Holds docs) (d : Document) (s : σ) :
    ((c.add react d.id d.tokens d.metadata).run s).1.1.Holds (accept docs d) := by
  by_cases hd : d.id ∈ docs.map Document.id
  · rw [Corpus.add, record_taken h hd, accept, if_pos hd]
    exact h
  · obtain ⟨grown, hr, hg, _⟩ := record_new h hd
    rw [Corpus.add, hr, accept, if_neg hd]
    exact ⟨hg.index, hg.history⟩

theorem Holds.handle {c : Corpus β} {docs : List Document} (h : c.Holds docs)
    (event : CorpusEvent β) (s : σ) :
    ((c.handle react event).run s).1.Holds (event.document?.toList.foldl accept docs) := by
  cases event with
  | add d => exact h.add react d s
  | subscribe subscriber => exact ⟨h.index, h.history⟩
  | unsubscribe id => exact ⟨h.index, h.history⟩

theorem Holds.run {c : Corpus β} {docs : List Document} (h : c.Holds docs)
    (events : List (CorpusEvent β)) (s : σ) :
    ((c.run react events).run s).1.Holds
      ((events.filterMap CorpusEvent.document?).foldl accept docs) := by
  induction events generalizing c docs s with
  | nil => exact h
  | cons event events ih =>
    have hs := ih (h.handle react event s) ((c.handle react event).run s).2
    rw [← List.foldl_append] at hs
    cases event <;> exact hs

end State

/-- What can be asked of a corpus that has taken in these documents, with the answers. Counts are
words. -/
structure Describes (c : Corpus β) (docs : List Document) : Prop where
  metadata : ∀ id, c.index.metadata? id = (documentOf? docs id).map Document.metadata
  length : ∀ id, c.index.docLength? id = (documentOf? docs id).map (·.tokens.length)
  history : ∀ id : String, c.history[id]? = (documentOf? docs id).map Document.tokens
  total : c.index.totalDocs = wordCount docs.length
  postings : ∀ token, (c.index.postingsOf token).toList = postingsIn docs token
  docFreq : ∀ token, c.index.docFreq token = wordCount (postingsIn docs token).length
  contains : ∀ id token, c.index.contains id token = true ↔ token ∈ c.tokens id
  vocabulary : c.index.vocabularySize = (docs.flatMap Document.tokens).dedup.length

theorem Holds.contains {c : Corpus β} {docs : List Document} (h : c.Holds docs)
    (id token : String) : c.index.contains id token = true ↔ token ∈ c.tokens id := by
  rw [h.index.contains_iff_documentOf?, h.tokens]
  cases documentOf? docs id with
  | none => simp
  | some d => simp

theorem Holds.describes {c : Corpus β} {docs : List Document} (h : c.Holds docs) :
    c.Describes docs where
  metadata := h.index.documents
  length := h.index.lengths
  history := h.history
  total := h.index.total
  postings token := by rw [h.index.postingsOf]
  docFreq token := by rw [h.index.docFreq, h.index.postingsOf, List.size_toArray]
  contains := h.contains
  vocabulary := h.index.vocabularySize

/-- Index and history stay in step over every run from the empty corpus, whatever is added, whoever
subscribes and whatever the subscribers answer. As long as they fit their words, the counts are
exact. -/
theorem run_describes_firsts {σ : Type} (react : React (StateM σ) β)
    (events : List (CorpusEvent β)) (s : σ) :
    let c := ((Corpus.run react {} events).run s).1
    let docs := firsts (events.filterMap CorpusEvent.document?)
    c.Describes docs ∧
      (docs.length < 2 ^ 64 → c.index.totalDocs = docs.length ∧
        ∀ token, c.index.docFreq token = (postingsIn docs token).length) ∧
      ((∀ d ∈ docs, CountsFit d.tokens) → ∀ token,
        (c.index.postingsOf token).toList.map (fun p => (p.id, p.frequency.toNat)) =
          (docs.filter fun d => token ∈ d.tokens).map fun d => (d.id, d.tokens.count token)) := by
  intro c docs
  have h : c.Holds docs := holds_nil.run react events s
  refine ⟨h.describes, fun few => ⟨?_, fun token => ?_⟩, fun fit token => ?_⟩
  · rw [h.describes.total, wordCount_of_lt few]
  · have fewer : (postingsIn docs token).length ≤ docs.length := by
      simpa [postingsIn] using List.length_filter_le ..
    rw [h.describes.docFreq, wordCount_of_lt (by omega)]
  · rw [h.describes.postings, postingsIn, List.map_map]
    refine List.map_congr_left fun d hd => ?_
    exact congrArg (d.id, ·) ((fit d (List.mem_filter.1 hd).1).toNat_tally token)

end Corpus

end Concordance

import Concordance.Proofs.Engine.Growth
import Concordance.Proofs.Index.Restored

/-!
Agreement of words and phrases.  Words are looked up in postings and phrases in token sequences.  A
snapshot holds both, and restoring it compares no more than whether each document with a token
sequence is known: where the two differ, the engine goes on with both.
-/

namespace Concordance

variable {β σ : Type}

namespace Corpus

/-- A corpus whose index and history name the same tokens for every identifier, known or not. -/
structure Consistent (c : Corpus β) : Prop where
  contains : ∀ id token, c.index.contains id token = true ↔ token ∈ c.tokens id
  known : ∀ id : String, id ∈ c.history → c.index.hasDocument id = true

theorem tokens_of_not_mem {c : Corpus β} {id : String} (h : id ∉ c.history) : c.tokens id = [] := by
  rw [tokens, Std.ExtTreeMap.getD_eq_fallback h]

theorem Consistent.record {c grown : Corpus β} (h : c.Consistent) {id : String}
    {tokens : List String} {metadata : Record} (hr : c.record id tokens metadata = .ok grown) :
    grown.Consistent := by
  obtain ⟨hn, rfl⟩ := record_eq_ok hr
  have hnew : c.tokens id = [] := tokens_of_not_mem fun hm => hn (h.known id hm)
  constructor
  · intro other token
    rw [Index.contains_insert (d := ⟨id, tokens, metadata⟩), h.contains]
    simp only [Corpus.tokens, Std.ExtTreeMap.getD_insert] at hnew ⊢
    by_cases he : id = other
    · subst he
      simp [hnew]
    · simp [he]
  · intro other hm
    rw [Index.hasDocument_insert (d := ⟨id, tokens, metadata⟩)]
    rw [Std.ExtTreeMap.mem_insert] at hm
    exact hm.imp (by simp) (h.known other)

end Corpus

namespace Engine

/-- Each document of the index contains the tokens of its stored sequence and no others. -/
def Agrees (e : Engine β) : Prop :=
  ∀ id, e.index.hasDocument id = true →
    ∀ token, e.index.contains id token = true ↔ token ∈ e.tokens id

/-- What an engine becomes by additions. -/
inductive Extends (react : React (StateM σ) β) (e : Engine β) : Engine β → Prop where
  | start : Extends react e e
  | add {grown : Engine β} (id : String) (record : Record) (fields : Option (List String)) (s : σ) :
      Extends react e grown → Extends react e ((grown.add react id record fields).run s).1.1

theorem ofSnapshot_history {s : Snapshot} {history : History} (hh : s.history = some history)
    {e : Engine β} (h : ofSnapshot s = .ok e) :
    e.documents = .corpus { index := s.index, history } ∧
      ∀ id : String, id ∈ history → s.index.hasDocument id = true := by
  obtain ⟨index, hi, h⟩ := Result.bind_eq_ok.1 h
  obtain ⟨rfl, -, -⟩ := Index.restore_eq_ok.1 hi
  simp only [hh] at h
  split at h
  · cases h
  next hn =>
    obtain ⟨analyzer, -, h⟩ := Result.bind_eq_ok.1 h
    cases h
    refine ⟨rfl, fun id hm => ?_⟩
    simpa using List.find?_eq_none.1 hn id (Std.ExtTreeMap.mem_keys.2 hm)

theorem add_corpus_cases (react : React (StateM σ) β) {e : Engine β} {c : Corpus β}
    (he : e.documents = .corpus c) (hs : c.signal = {}) (id : String) (record : Record)
    (fields : Option (List String)) (s : σ) :
    ((e.add react id record fields).run s).1.1 = e ∨
      ∃ (tokens : List String) (grown : Corpus β), c.record id tokens record = .ok grown ∧
        ((e.add react id record fields).run s).1.1 = { e with documents := .corpus grown } := by
  rw [add_corpus react he hs]
  cases e.analyzer.documentTokens record fields with
  | error fault => exact .inl rfl
  | ok tokens =>
    cases hr : c.record id tokens record with
    | error fault => exact .inl (by simp only [hr])
    | ok grown => exact .inr ⟨tokens, grown, hr, by simp only [hr]⟩

theorem Extends.consistent {react : React (StateM σ) β} {e grown : Engine β}
    (hg : Extends react e grown)
    (h : ∃ c : Corpus β, e.documents = .corpus c ∧ c.Consistent ∧ c.signal = {}) :
    ∃ c : Corpus β, grown.documents = .corpus c ∧ c.Consistent ∧ c.signal = {} := by
  induction hg with
  | start => exact h
  | @add grown id record fields s _ ih =>
    obtain ⟨c, he, hc, hs⟩ := ih
    rcases add_corpus_cases react he hs id record fields s with hu | ⟨tokens, c', hr, hu⟩
    · rw [hu]
      exact ⟨c, he, hc, hs⟩
    · rw [hu]
      refine ⟨c', rfl, hc.record hr, ?_⟩
      obtain ⟨-, rfl⟩ := Corpus.record_eq_ok hr
      exact hs

/-- The engine of a snapshot with history agrees on all its documents through all additions exactly
if the postings and the history of the snapshot name the same tokens for every identifier. -/
theorem agrees_extends_iff [Nonempty σ] {s : Snapshot} {history : History}
    (hh : s.history = some history) {e : Engine β} (h : ofSnapshot s = .ok e)
    (react : React (StateM σ) β) :
    (∀ grown, Extends react e grown → grown.Agrees) ↔
      ∀ id token, s.index.contains id token = true ↔ token ∈ history.getD id [] := by
  obtain ⟨he, hk⟩ := ofSnapshot_history hh h
  constructor
  · intro ha id token
    have hs : e.index = s.index ∧ e.tokens id = history.getD id [] := by
      simp [index, Engine.tokens, corpus?, he, Corpus.tokens]
    by_cases hd : s.index.hasDocument id = true
    · rw [← hs.1, ← hs.2]
      exact ha e .start id (by rw [hs.1]; exact hd) token
    · have hu : history.getD id [] = [] :=
        Std.ExtTreeMap.getD_eq_fallback fun hm => hd (hk id hm)
      -- The document is not known, so it could be added with no tokens. Postings that named it
      -- before would name it still.
      obtain ⟨s₀⟩ := ‹Nonempty σ›
      have hgrown : ((e.add react id ∅ (some [])).run s₀).1.1 = { e with documents := .corpus {
          index := s.index.insert id [] ∅, history := history.insert id [] } } := by
        rw [add_corpus react he rfl]
        have ht : e.analyzer.documentTokens ∅ (some []) = .ok [] := rfl
        simp [ht, Corpus.record, Index.add, hd, Except.map]
      have hg := ha _ (.add id ∅ (some []) s₀ .start) id
      rw [hgrown] at hg
      have hg := hg ((Index.hasDocument_insert s.index ⟨id, [], ∅⟩ id).2 (.inl rfl)) token
      rw [hu]
      simpa [index, Engine.tokens, corpus?, Corpus.tokens,
        Index.contains_insert s.index ⟨id, [], ∅⟩] using hg
  · intro hc grown hg
    obtain ⟨c, hd, hc, -⟩ := hg.consistent ⟨_, he, ⟨hc, hk⟩, rfl⟩
    intro id _ token
    have hv : grown.index = c.index ∧ grown.tokens id = c.tokens id := by
      simp [index, Engine.tokens, corpus?, hd]
    rw [hv.1, hv.2]
    exact hc.contains id token

private def foxSnapshot (history : History) : Snapshot where
  index := {
    postings := (∅ : Named (Array Posting)).insert "fox" #[⟨"1", 1⟩]
    docFreqs := (∅ : Named Nat).insert "fox" 1
    documents := (∅ : Named Record).insert "1" ∅
    stats := ⟨(∅ : Named Nat).insert "1" 1, 1⟩ }
  config := ⟨.none, ∅, none, none⟩
  history := some history

theorem agrees_extends_iff_fox :
    let react : React (StateM Unit) Unit := fun _ _ => pure ((), .ok ())
    ∃ e : Engine Unit, ofSnapshot (foxSnapshot ((∅ : History).insert "1" ["fox"])) = .ok e ∧
      ∀ grown, Extends react e grown → grown.Agrees := by
  intro react
  obtain ⟨e, he⟩ : ∃ e : Engine Unit,
      ofSnapshot (foxSnapshot ((∅ : History).insert "1" ["fox"])) = .ok e := ⟨_, rfl⟩
  refine ⟨e, he, (agrees_extends_iff rfl he react).2 fun id token => ?_⟩
  simp only [foxSnapshot, Index.contains, Index.postingsOf, Std.ExtTreeMap.getD_insert,
    Std.ExtTreeMap.getD_empty]
  rcases eq_or_ne "fox" token with rfl | ht <;> rcases eq_or_ne "1" id with rfl | hi
  · simp
  · simp [hi]
  · simp [ht, ht.symm]
  · simp [ht, hi]

/-- A snapshot is restored in which a document has a posting and its token sequence is missing: the
word finds the document, and a phrase of that word does not. -/
theorem restore_missing_history :
    ∃ e : Engine Unit, ofSnapshot (foxSnapshot ∅) = .ok e ∧ e.hasHistory = true ∧
      e.index.hasDocument "1" = true ∧ e.index.contains "1" "fox" = true ∧ e.tokens "1" = [] :=
  ⟨_, rfl, rfl, rfl, by decide +kernel, rfl⟩

end Engine

end Concordance

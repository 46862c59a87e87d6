import Concordance.Engine.Basic
import Concordance.Proofs.Corpus.Growth
import Concordance.Proofs.Result

namespace Concordance

variable {β σ : Type}

namespace Analyzer

structure Makes (a : Analyzer) (record : Record) (d : Document) : Prop where
  id : recordId? record = some d.id
  tokens : a.documentTokens record none = .ok d.tokens
  metadata : d.metadata = record

theorem indexRecord_holds {a : Analyzer} {c grown : Corpus β} {docs : List Document}
    {record : Record} (h : c.Holds docs) (hr : a.indexRecord c record = .ok grown) :
    ∃ new : List Document, grown.Holds (docs ++ new) ∧ grown.signal = c.signal ∧
      ∀ d ∈ new, a.Makes record d := by
  unfold indexRecord at hr
  split at hr
  · cases hr
  next id hi =>
    obtain ⟨tokens, ht, hr⟩ := Result.bind_eq_ok.1 hr
    split at hr
    · cases hr
      exact ⟨[], by simpa using h, rfl, by simp⟩
    · by_cases hd : id ∈ docs.map Document.id
      · rw [Corpus.record_taken (d := ⟨id, tokens, record⟩) h hd] at hr
        cases hr
      · obtain ⟨c', hc, hg, hs⟩ := Corpus.record_new (d := ⟨id, tokens, record⟩) h hd
        rw [hc] at hr
        cases hr
        exact ⟨[⟨id, tokens, record⟩], hg, hs, by simpa using ⟨hi, ht, rfl⟩⟩

theorem indexRecords_holds {a : Analyzer} {c grown : Corpus β} {docs : List Document}
    {records : List Record} (h : c.Holds docs) (hr : a.indexRecords c records = .ok grown) :
    ∃ new : List Document, grown.Holds (docs ++ new) ∧ grown.signal = c.signal ∧
      ∀ d ∈ new, ∃ record ∈ records, a.Makes record d := by
  induction records generalizing c docs with
  | nil =>
    cases hr
    exact ⟨[], by simpa using h, rfl, by simp⟩
  | cons record rest ih =>
    rw [indexRecords] at hr
    split at hr
    next c' hc =>
      obtain ⟨new, hn, hs, hm⟩ := indexRecord_holds h hc
      obtain ⟨more, hn', hs', hm'⟩ := ih hn hr
      refine ⟨new ++ more, by simpa using hn', hs'.trans hs, fun d hd => ?_⟩
      rcases List.mem_append.1 hd with hd | hd
      · exact ⟨record, by simp, hm d hd⟩
      · obtain ⟨r, hr, hd⟩ := hm' d hd
        exact ⟨r, by simp [hr], hd⟩
    next e he =>
      split at hr
      · obtain ⟨new, hn, hs, hm⟩ := ih h hr
        refine ⟨new, hn, hs, fun d hd => ?_⟩
        obtain ⟨r, hr, hd⟩ := hm d hd
        exact ⟨r, by simp [hr], hd⟩
      · cases hr

theorem ofConfig_eq_ok {config : Config} {a : Analyzer} : ofConfig config = .ok a ↔
    config.check = .ok () ∧ Tokenizer.ofNgram config.ngram = .ok a.tokenizer ∧ a.config = config := by
  constructor
  · intro h
    obtain ⟨⟨⟩, hc, h⟩ := Result.bind_eq_ok.1 h
    obtain ⟨t, ht, h⟩ := Result.bind_eq_ok.1 h
    cases h
    exact ⟨hc, ht, rfl⟩
  · rintro ⟨hc, ht, rfl⟩
    unfold ofConfig
    rw [hc, ht]
    rfl

theorem ofConfig_config {config : Config} {a : Analyzer} (h : ofConfig config = .ok a) :
    a.config = config :=
  (ofConfig_eq_ok.1 h).2.2

theorem ngram_of_ofNgram {ngram : Option Nat} {t : Tokenizer}
    (h : Tokenizer.ofNgram ngram = .ok t) : t.ngram = ngram := by
  unfold Tokenizer.ofNgram at h
  split at h
  · cases h
  · cases h
    rfl

end Analyzer

theorem Corpus.add_silent (react : React (StateM σ) β) {c : Corpus β} (h : c.signal = {})
    (id : String) (tokens : List String) (metadata : Record) (s : σ) :
    (c.add react id tokens metadata).run s =
      (match c.record id tokens metadata with
        | .error e => (c, .error e)
        | .ok grown => (grown, .ok ()), s) := by
  unfold Corpus.add
  cases hr : c.record id tokens metadata with
  | error e => rfl
  | ok grown =>
    obtain ⟨-, rfl⟩ := record_eq_ok hr
    simp only [h]
    rfl

namespace Engine

def tokens (e : Engine β) (id : String) : List String :=
  (e.corpus?.map (·.tokens id)).getD []

/-- Engines built from records and grown by additions. -/
inductive Grown (react : React (StateM σ) β) : Engine β → Prop where
  | ofRecords {records : List Record} {config : Config} {e : Engine β} :
      Engine.ofRecords records config = .ok e → Grown react e
  | add {e : Engine β} (id : String) (record : Record) (fields : Option (List String)) (s : σ) :
      Grown react e → Grown react ((e.add react id record fields).run s).1.1

/-- An engine whose corpus holds these documents and tells no one. -/
structure Holds (e : Engine β) (docs : List Document) : Prop where
  sound : Analyzer.ofConfig e.config = .ok e.analyzer
  corpus : ∃ c : Corpus β, e.documents = .corpus c ∧ c.Holds docs ∧ c.signal = {}

theorem ofRecords_holds {records : List Record} {config : Config} {e : Engine β}
    (h : Engine.ofRecords records config = .ok e) :
    e.config = config ∧ ∃ docs : List Document, e.Holds docs ∧
      ∀ d ∈ docs, ∃ record ∈ records, e.analyzer.Makes record d := by
  obtain ⟨a, ha, h⟩ := Result.bind_eq_ok.1 h
  obtain ⟨c, hb, h⟩ := Result.bind_eq_ok.1 h
  cases h
  have hc := Analyzer.ofConfig_config ha
  obtain ⟨docs, hd, hs, hm⟩ := Analyzer.indexRecords_holds Corpus.holds_nil hb
  rw [← hc] at ha
  exact ⟨hc, docs, ⟨ha, c, rfl, by simpa using hd, hs⟩, hm⟩

section Effects

variable {m : Type → Type} [Monad m] (react : React m β) {e : Engine β} {id : String}
  {record : Record} {fields : Option (List String)}

theorem add_eq_error {fault : Error}
    (ht : e.analyzer.documentTokens record fields = .error fault) :
    e.add react id record fields = pure (e, .error fault) := by
  rw [add, ht]

theorem add_eq_map [LawfulMonad m] {c : Corpus β} {tokens : List String}
    (he : e.documents = .corpus c)
    (ht : e.analyzer.documentTokens record fields = .ok tokens) :
    e.add react id record fields =
      (fun added => ({ e with documents := .corpus added.1 }, added.2)) <$>
        c.add react id tokens record := by
  rw [add, ht, he, map_eq_pure_bind]

end Effects

section Add

variable (react : React (StateM σ) β) {e : Engine β} {docs : List Document}

theorem add_corpus {c : Corpus β} (he : e.documents = .corpus c) (hs : c.signal = {})
    (id : String) (record : Record) (fields : Option (List String)) (s : σ) :
    (e.add react id record fields).run s =
      (match e.analyzer.documentTokens record fields with
        | .error fault => (e, .error fault)
        | .ok tokens => match c.record id tokens record with
          | .error fault => (e, .error fault)
          | .ok grown => ({ e with documents := .corpus grown }, .ok ()), s) := by
  cases ht : e.analyzer.documentTokens record fields with
  | error fault =>
    rw [add_eq_error react ht]
    rfl
  | ok tokens =>
    rw [add_eq_map react he ht, StateT.run_map, Corpus.add_silent react hs]
    obtain ⟨analyzer, documents⟩ := e
    cases he
    cases hr : c.record id tokens record <;> simp only [hr] <;> rfl

/-- An addition takes in the document that is offered, if there is one and its identifier is new. -/
theorem Holds.add_accept (h : e.Holds docs) (id : String) (record : Record)
    (fields : Option (List String)) (s : σ) :
    ((e.add react id record fields).run s).1.1.Holds
      ((e.analyzer.documentTokens record fields).toOption.toList.foldl
        (fun docs tokens => accept docs ⟨id, tokens, record⟩) docs) := by
  obtain ⟨ha, c, he, hc, hs⟩ := h
  rw [add_corpus react he hs]
  cases e.analyzer.documentTokens record fields with
  | error fault => exact ⟨ha, c, he, hc, hs⟩
  | ok tokens =>
    show Holds _ (accept docs ⟨id, tokens, record⟩)
    by_cases hd : id ∈ docs.map Document.id
    · simp only [Corpus.record_taken (d := ⟨id, tokens, record⟩) hc hd]
      rw [accept, if_pos hd]
      exact ⟨ha, c, he, hc, hs⟩
    · obtain ⟨c', hr, hg, hs'⟩ := Corpus.record_new (d := ⟨id, tokens, record⟩) hc hd
      simp only [hr]
      rw [accept, if_neg hd]
      exact ⟨ha, c', rfl, hg, hs'.trans hs⟩

theorem Holds.add_cases (h : e.Holds docs) (id : String) (record : Record)
    (fields : Option (List String)) (s : σ) :
    ((e.add react id record fields).run s).1.1.analyzer = e.analyzer ∧
      (((e.add react id record fields).run s).1.1.Holds docs ∨
        ∃ tokens, e.analyzer.documentTokens record fields = .ok tokens ∧
          ((e.add react id record fields).run s).1.1.Holds (docs ++ [⟨id, tokens, record⟩])) := by
  have ha := h.add_accept react id record fields s
  obtain ⟨-, c, he, -, hs⟩ := h
  constructor
  · rw [add_corpus react he hs]
    cases e.analyzer.documentTokens record fields with
    | error fault => rfl
    | ok tokens => cases hr : c.record id tokens record <;> simp only [hr]
  · cases ht : e.analyzer.documentTokens record fields with
    | error fault =>
      rw [ht] at ha
      exact .inl ha
    | ok tokens =>
      rw [ht] at ha
      have haccept : Holds _ (accept docs ⟨id, tokens, record⟩) := ha
      unfold accept at haccept
      split at haccept
      · exact .inl haccept
      · exact .inr ⟨tokens, rfl, haccept⟩

theorem Holds.add (h : e.Holds docs) (id : String) (record : Record)
    (fields : Option (List String)) (s : σ) :
    ∃ grown : List Document, ((e.add react id record fields).run s).1.1.Holds grown := by
  obtain ⟨-, hd | ⟨tokens, -, hd⟩⟩ := h.add_cases react id record fields s
  · exact ⟨docs, hd⟩
  · exact ⟨_, hd⟩

theorem Grown.made (h : e.Grown react) : ∃ docs : List Document, e.Holds docs ∧
    ∀ d ∈ docs, ∃ record fields, e.analyzer.documentTokens record fields = .ok d.tokens := by
  induction h with
  | ofRecords hr =>
    obtain ⟨-, docs, hd, hm⟩ := ofRecords_holds hr
    refine ⟨docs, hd, fun d hdoc => ?_⟩
    obtain ⟨record, -, hm⟩ := hm d hdoc
    exact ⟨record, none, hm.tokens⟩
  | add id record fields s _ ih =>
    obtain ⟨docs, hd, hm⟩ := ih
    obtain ⟨ha, hk | ⟨tokens, ht, hk⟩⟩ := hd.add_cases react id record fields s
    · exact ⟨docs, hk, by rwa [ha]⟩
    · refine ⟨_, hk, fun d hdoc => ?_⟩
      rw [ha]
      rcases List.mem_append.1 hdoc with hdoc | hdoc
      · exact hm d hdoc
      · rw [List.mem_singleton.1 hdoc]
        exact ⟨record, fields, ht⟩

theorem Grown.holds (h : e.Grown react) : ∃ docs : List Document, e.Holds docs := by
  obtain ⟨docs, hd, -⟩ := h.made
  exact ⟨docs, hd⟩

end Add

theorem Holds.view {e : Engine β} {docs : List Document} (h : e.Holds docs) :
    ∃ c : Corpus β, e.documents = .corpus c ∧ c.Holds docs ∧ e.index = c.index ∧
      e.tokens = c.tokens := by
  obtain ⟨-, c, he, hc, -⟩ := h
  exact ⟨c, he, hc, by simp [index, he], by funext id; simp [Engine.tokens, corpus?, he]⟩

section View

variable {e : Engine β} {docs : List Document} (h : e.Holds docs)
include h

theorem Holds.tokens (id : String) :
    e.tokens id = ((documentOf? docs id).map Document.tokens).getD [] := by
  obtain ⟨c, -, hc, -, hk⟩ := h.view
  rw [hk, hc.tokens]

theorem Holds.contains (id token : String) :
    e.index.contains id token = true ↔ token ∈ e.tokens id := by
  obtain ⟨c, -, hc, hi, hk⟩ := h.view
  rw [hi, hk]
  exact hc.contains id token

theorem Holds.holds_index : e.index.Holds docs := by
  obtain ⟨c, -, hc, hi, -⟩ := h.view
  rw [hi]
  exact hc.index

theorem Holds.termFrequency (id token : String) :
    e.index.termFrequency id token = (tally (e.tokens id) token).toNat := by
  rw [h.holds_index.termFrequency, h.tokens]
  cases documentOf? docs id <;> rfl

theorem Holds.hasDocument_of_mem {id token : String} (ht : token ∈ e.tokens id) :
    e.index.hasDocument id = true := by
  obtain ⟨d, hd, rfl, -⟩ := (h.holds_index.contains id token).1 ((h.contains id token).2 ht)
  exact (h.holds_index.hasDocument d.id).2 (List.mem_map_of_mem hd)

end View

end Engine

end Concordance

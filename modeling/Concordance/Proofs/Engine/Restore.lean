import Concordance.Engine.Search
import Concordance.Proofs.Engine.Growth
import Concordance.Proofs.Index.Restored
import Concordance.Ranking.Basic

namespace Concordance

variable {β σ : Type}

theorem Index.Holds.restore {index : Index} {docs : List Document} (h : index.Holds docs)
    (few : index.documents.size < 2 ^ 64) : index.restore = .ok index := by
  refine restore_eq_ok.2 ⟨rfl, fun token _ => ?_, fun token p hm => ?_⟩
  · have hl : (postingsIn docs token).length ≤ docs.length := by
      simpa [postingsIn] using List.length_filter_le ..
    have hs := h.size_documents
    rw [h.docFreq, h.postingsOf, List.size_toArray, wordCount_of_lt]
    omega
  · obtain ⟨d, ⟨hd, -⟩, rfl⟩ : ∃ d, (d ∈ docs ∧ token ∈ d.tokens) ∧
        (⟨d.id, tally d.tokens token⟩ : Posting) = p := by
      simpa [h.postingsOf, postingsIn] using hm
    rw [Std.ExtTreeMap.mem_iff_isSome_getElem?, h.lengths]
    simp [(documentOf?_eq_some h.distinct).2 ⟨hd, rfl⟩]

theorem Corpus.Holds.history_known {c : Corpus β} {docs : List Document} (h : c.Holds docs) :
    (c.history.keys.find? fun id => !c.index.hasDocument id) = none := by
  refine List.find?_eq_none.2 fun id hm => ?_
  rw [Std.ExtTreeMap.mem_keys, Std.ExtTreeMap.mem_iff_isSome_getElem?, h.history] at hm
  have hd : c.index.hasDocument id = true := by
    rw [Index.hasDocument, Std.ExtTreeMap.contains_eq_isSome_getElem?, h.index.documents]
    simpa using hm
  simp [hd]

def Analyzer.withPolicy (a : Analyzer) (policy : RecordPolicy) : Analyzer :=
  { a with config := { a.config with policy } }

theorem Analyzer.ofConfig_policy {config : Config} {a : Analyzer} (h : ofConfig config = .ok a)
    (policy : RecordPolicy) : ofConfig { config with policy } = .ok (a.withPolicy policy) := by
  obtain ⟨_, hc, h⟩ := Result.bind_eq_ok.1 h
  obtain ⟨t, ht, h⟩ := Result.bind_eq_ok.1 h
  cases h
  exact Result.bind_eq_ok.2 ⟨(), hc, Result.bind_eq_ok.2 ⟨t, ht, rfl⟩⟩

namespace Engine

inductive Operation where
  | search (text : String) (limit : Nat)
  | explain (text : String) (limit : Nat)
  | add (id : String) (record : Record) (fields : Option (List String))
  | hasHistory
  | snapshot

inductive Answer (α : Type) where
  | hits (found : Result (List (Hit α)))
  | added (outcome : Result Unit)
  | hasHistory (known : Bool)
  | snapshot (s : Snapshot)

section Perform

variable {m : Type → Type} [Monad m] {α : Type} [Scalar α]

def perform (react : React m β) (score : Scorer α) (e : Engine β) :
    Operation → m (Engine β × Answer α)
  | .search text limit => pure (e, .hits (e.search score text limit))
  | .explain text limit => pure (e, .hits (e.explain score text limit))
  | .add id record fields => (fun r => (r.1, .added r.2)) <$> e.add react id record fields
  | .hasHistory => pure (e, .hasHistory e.hasHistory)
  | .snapshot => pure (e, .snapshot e.snapshot)

def answers (react : React m β) (score : Scorer α) : Engine β → List Operation → m (List (Answer α))
  | _, [] => pure []
  | e, operation :: rest => do
    let (e, answer) ← e.perform react score operation
    return answer :: (← answers react score e rest)

def withPolicy (e : Engine β) (policy : RecordPolicy) : Engine β :=
  { e with analyzer := e.analyzer.withPolicy policy }

theorem add_withPolicy [LawfulMonad m] (react : React m β) (e : Engine β) (policy : RecordPolicy)
    (id : String) (record : Record) (fields : Option (List String)) :
    (e.withPolicy policy).add react id record fields =
      (fun r => (r.1.withPolicy policy, r.2)) <$> e.add react id record fields := by
  have ht : (e.withPolicy policy).analyzer.documentTokens record fields =
      e.analyzer.documentTokens record fields := rfl
  have hd : (e.withPolicy policy).documents = e.documents := rfl
  unfold Engine.add
  rw [ht, hd]
  cases e.analyzer.documentTokens record fields with
  | error fault => simp
  | ok tokens =>
    cases e.documents with
    | corpus c => simp [withPolicy]
    | bare index =>
      dsimp only
      cases index.add id tokens record <;> simp [withPolicy]

theorem perform_withPolicy [LawfulMonad m] (react : React m β) (score : Scorer α) (e : Engine β)
    (policy : RecordPolicy) (operation : Operation) :
    (e.withPolicy policy).perform react score operation =
      (fun r => (r.1.withPolicy policy, r.2)) <$> e.perform react score operation := by
  cases operation with
  | search text limit => rw [perform, perform, map_pure]; rfl
  | explain text limit => rw [perform, perform, map_pure]; rfl
  | add id record fields =>
    rw [perform, perform, add_withPolicy]
    simp only [Functor.map_map]
  | hasHistory => rw [perform, perform, map_pure]; rfl
  | snapshot => rw [perform, perform, map_pure]; rfl

theorem answers_withPolicy [LawfulMonad m] (react : React m β) (score : Scorer α)
    (policy : RecordPolicy) (e : Engine β) (operations : List Operation) :
    answers react score (e.withPolicy policy) operations = answers react score e operations := by
  induction operations generalizing e with
  | nil => rfl
  | cons operation rest ih => simp [answers, perform_withPolicy, ih]

end Perform

/-- Engines built from records, or over the index of one that has been reached, and grown by
additions. -/
inductive Reached (react : React (StateM σ) β) : Engine β → Prop where
  | ofRecords {records : List Record} {config : Config} {e : Engine β} :
      Engine.ofRecords records config = .ok e → Reached react e
  | ofIndex {e bare : Engine β} {config : Config} :
      Reached react e → Engine.ofIndex e.index config = .ok bare → Reached react bare
  | add {e : Engine β} (id : String) (record : Record) (fields : Option (List String)) (s : σ) :
      Reached react e → Reached react ((e.add react id record fields).run s).1.1

structure HoldsBare (e : Engine β) (docs : List Document) : Prop where
  sound : Analyzer.ofConfig e.config = .ok e.analyzer
  bare : ∃ index : Index, e.documents = .bare index ∧ index.Holds docs

theorem HoldsBare.add {e : Engine β} {docs : List Document} (react : React (StateM σ) β)
    (h : e.HoldsBare docs) (id : String) (record : Record) (fields : Option (List String)) (s : σ) :
    ∃ grown : List Document, ((e.add react id record fields).run s).1.1.HoldsBare grown := by
  obtain ⟨ha, index, he, hi⟩ := h
  unfold Engine.add
  cases e.analyzer.documentTokens record fields with
  | error fault => exact ⟨docs, ha, index, he, hi⟩
  | ok tokens =>
    simp only [he]
    by_cases hd : id ∈ docs.map Document.id
    · rw [Index.add, if_pos ((hi.hasDocument id).2 hd)]
      exact ⟨docs, ha, index, he, hi⟩
    · rw [Index.add, if_neg fun ht => hd ((hi.hasDocument id).1 ht)]
      exact ⟨_, ha, _, rfl, hi.insert ⟨id, tokens, record⟩ hd⟩

theorem Reached.holds {react : React (StateM σ) β} {e : Engine β} (h : e.Reached react) :
    ∃ docs : List Document, e.Holds docs ∨ e.HoldsBare docs := by
  induction h with
  | ofRecords hr =>
    obtain ⟨-, docs, hd, -⟩ := ofRecords_holds hr
    exact ⟨docs, .inl hd⟩
  | @ofIndex e bare config _ hb ih =>
    obtain ⟨docs, hd⟩ := ih
    have hi : e.index.Holds docs := by
      rcases hd with ⟨-, c, he, hc, -⟩ | ⟨-, index, he, hi⟩
      · rw [Engine.index, he]
        exact hc.index
      · rw [Engine.index, he]
        exact hi
    obtain ⟨a, ha, hb⟩ := Result.bind_eq_ok.1 hb
    cases hb
    have hc := Analyzer.ofConfig_config ha
    rw [← hc] at ha
    exact ⟨docs, .inr ⟨ha, e.index, rfl, hi⟩⟩
  | add id record fields s _ ih =>
    obtain ⟨docs, hd | hd⟩ := ih
    · obtain ⟨grown, hg⟩ := hd.add react id record fields s
      exact ⟨grown, .inl hg⟩
    · obtain ⟨grown, hg⟩ := hd.add react id record fields s
      exact ⟨grown, .inr hg⟩

theorem Holds.ofSnapshot {e : Engine β} {docs : List Document} (h : e.Holds docs)
    (few : e.index.documents.size < 2 ^ 64) :
    Engine.ofSnapshot e.snapshot = .ok (e.withPolicy .skip) := by
  obtain ⟨ha, ⟨index, history, signal⟩, he, hc, rfl⟩ := h
  obtain ⟨analyzer, documents⟩ := e
  cases he
  have hr : index.restore = .ok index := hc.index.restore few
  simp only [Engine.ofSnapshot, snapshot, Engine.index, hr, corpus?, Option.map_some, bind,
    Except.bind, hc.history_known]
  exact Result.bind_eq_ok.2 ⟨_, Analyzer.ofConfig_policy ha .skip, rfl⟩

theorem HoldsBare.ofSnapshot {e : Engine β} {docs : List Document} (h : e.HoldsBare docs)
    (few : e.index.documents.size < 2 ^ 64) :
    Engine.ofSnapshot e.snapshot = .ok (e.withPolicy .skip) := by
  obtain ⟨ha, index, he, hi⟩ := h
  obtain ⟨analyzer, documents⟩ := e
  cases he
  have hr : index.restore = .ok index := hi.restore few
  simp only [Engine.ofSnapshot, snapshot, Engine.index, hr, corpus?, Option.map_none, bind,
    Except.bind]
  exact Result.bind_eq_ok.2 ⟨_, Analyzer.ofConfig_policy ha .skip, rfl⟩

/-- Restoring a snapshot succeeds, and the engine restored answers every sequence of operations as
the engine itself does. The table of documents is bounded as every table in memory is. -/
theorem ofSnapshot_snapshot {α : Type} [Scalar α] (react : React (StateM σ) β) {e : Engine β}
    (h : e.Reached react) (few : e.index.documents.size < 2 ^ 64) :
    ∃ restored : Engine β, ofSnapshot e.snapshot = .ok restored ∧
      ∀ (score : Scorer α) (operations : List Operation),
        answers react score restored operations = answers react score e operations := by
  obtain ⟨docs, hd⟩ := h.holds
  refine ⟨e.withPolicy .skip, ?_, fun score => answers_withPolicy react score .skip e⟩
  rcases hd with hd | hd
  · exact hd.ofSnapshot few
  · exact hd.ofSnapshot few

theorem ofSnapshot_snapshot_fox :
    let fox : Record :=
      .ofList [("id", Json.str "1"), ("text", Json.str "The quick red fox")] compare
    let react : React (StateM Unit) Unit := fun _ _ => pure ((), .ok ())
    ∃ e bare restored : Engine Unit, Engine.ofRecords [fox] {} = .ok e ∧
      Engine.ofIndex e.index { policy := .fail } = .ok bare ∧ bare.index.documents.size < 2 ^ 64 ∧
      Engine.ofSnapshot bare.snapshot = .ok restored ∧
      ∀ (score : Scorer Double) (operations : List Operation),
        answers react score restored operations = answers react score bare operations := by
  intro fox react
  have hok : ((Engine.ofRecords (β := Unit) [fox] {}).bind fun e => do
      let bare : Engine Unit ← Engine.ofIndex e.index { policy := .fail }
      return bare.index.documents.size).toOption = some 1 := by
    decide +kernel
  cases he : Engine.ofRecords (β := Unit) [fox] {} with
  | error fault => simp [he, Except.bind, Except.toOption] at hok
  | ok e =>
    cases hb : Engine.ofIndex (β := Unit) e.index { policy := .fail } with
    | error fault => simp [he, hb, bind, Except.bind, Except.toOption] at hok
    | ok bare =>
      have hs : bare.index.documents.size = 1 := by
        simpa [he, hb, bind, Except.bind, pure, Except.pure, Except.toOption] using hok
      have hr : bare.Reached react := .ofIndex (.ofRecords he) hb
      obtain ⟨restored, hok, ha⟩ := ofSnapshot_snapshot (α := Double) react hr (by omega)
      exact ⟨e, bare, restored, rfl, hb, by omega, hok, ha⟩

end Engine

end Concordance

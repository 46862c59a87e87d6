import Concordance.Proofs.Engine.Agreement
import Concordance.Proofs.Index.Overflow

/-!
Restored engines whose counters overflow.  What is checked when a snapshot is restored bounds the
document frequencies of tokens with a postings list; the count of documents, their lengths and the
other document frequencies are taken over as they are.
-/

namespace Concordance

structure Addition where
  id : String
  record : Record
  fields : Option (List String)

def Addition.document? (analyzer : Analyzer) (a : Addition) : Option Document :=
  (analyzer.documentTokens a.record a.fields).toOption.map fun tokens => ⟨a.id, tokens, a.record⟩

namespace Engine

variable {β σ : Type}

def addAll {m : Type → Type} [Monad m] (react : React m β) (e : Engine β)
    (additions : List Addition) : m (Engine β) :=
  additions.foldlM (fun e a => Prod.fst <$> e.add react a.id a.record a.fields) e

/-- No counter overflows in a run of additions, and at no time the sum of lengths. -/
def Counted (react : React (StateM σ) β) (e : Engine β) (w : σ) : List Addition → Prop
  | [] => e.index.stats.exactSum < 2 ^ 64
  | a :: rest => e.index.stats.exactSum < 2 ^ 64 ∧
      (∀ d, a.document? e.analyzer = some d → ¬ e.index.hasDocument d.id = true →
        e.index.CanCount d) ∧
      let added := (e.add react a.id a.record a.fields).run w
      added.1.1.Counted react added.2 rest

section Add

variable (react : React (StateM σ) β)

theorem run_corpusAdd_index (c : Corpus β) (d : Document) (w : σ) :
    ((c.add react d.id d.tokens d.metadata).run w).1.1.index = c.index.offer d := by
  rw [Corpus.add, Corpus.record, Index.offer]
  cases c.index.add d.id d.tokens d.metadata <;> rfl

theorem run_add_index (e : Engine β) (a : Addition) (w : σ) :
    let added := ((e.add react a.id a.record a.fields).run w).1.1
    added.analyzer = e.analyzer ∧
      added.index = e.index.offerAll (a.document? e.analyzer).toList := by
  unfold Addition.document?
  cases ht : e.analyzer.documentTokens a.record a.fields with
  | error fault =>
    rw [add_eq_error react ht]
    exact ⟨rfl, rfl⟩
  | ok tokens =>
    show _ ∧ _ = e.index.offer ⟨a.id, tokens, a.record⟩
    cases he : e.documents with
    | corpus c =>
      have hi : e.index = c.index := by rw [index, he]
      rw [add_eq_map react he ht, StateT.run_map, hi,
        ← run_corpusAdd_index react c ⟨a.id, tokens, a.record⟩ w]
      exact ⟨rfl, rfl⟩
    | bare index =>
      have hi : e.index = index := by rw [Engine.index, he]
      rw [add, ht, he, hi, Index.offer]
      dsimp only
      cases index.add a.id tokens a.record with
      | error fault => exact ⟨rfl, hi⟩
      | ok grown => exact ⟨rfl, rfl⟩

end Add

theorem run_addAll_cons (react : React (StateM σ) β) (e : Engine β) (a : Addition)
    (rest : List Addition) (w : σ) :
    (e.addAll react (a :: rest)).run w =
      let added := (e.add react a.id a.record a.fields).run w
      (added.1.1.addAll react rest).run added.2 := by
  rw [addAll, List.foldlM_cons, StateT.run_bind, StateT.run_map]
  rfl

theorem run_addAll_index (react : React (StateM σ) β) (e : Engine β) (additions : List Addition)
    (w : σ) : ((e.addAll react additions).run w).1.index =
      e.index.offerAll (additions.filterMap (Addition.document? e.analyzer)) := by
  induction additions generalizing e w with
  | nil => rfl
  | cons a rest ih =>
    obtain ⟨ha, hi⟩ := run_add_index react e a w
    rw [run_addAll_cons]
    dsimp only
    rw [ih, ha, hi, List.filterMap_cons]
    cases Addition.document? e.analyzer a <;> rfl

theorem counted_iff (react : React (StateM σ) β) (e : Engine β) (additions : List Addition) (w : σ) :
    e.Counted react w additions ↔
      e.index.Counted (additions.filterMap (Addition.document? e.analyzer)) := by
  induction additions generalizing e w with
  | nil => rfl
  | cons a rest ih =>
    obtain ⟨ha, hi⟩ := run_add_index react e a w
    rw [Counted, ih, ha, hi, List.filterMap_cons]
    cases Addition.document? e.analyzer a with
    | none =>
      simp only [Option.toList_none, reduceCtorEq, false_implies, implies_true, true_and]
      exact ⟨And.right, fun h => ⟨h.exactSum_lt, h⟩⟩
    | some d =>
      simp only [Option.some.injEq, forall_eq']
      rfl

theorem ofSnapshot_index {s : Snapshot} {e : Engine β} (h : ofSnapshot s = .ok e) :
    s.index.restore = .ok s.index ∧ e.index = s.index := by
  obtain ⟨index, hi, h⟩ := Result.bind_eq_ok.1 h
  obtain ⟨rfl, -, -⟩ := Index.restore_eq_ok.1 hi
  refine ⟨hi, ?_⟩
  cases hh : s.history with
  | none =>
    simp only [hh] at h
    obtain ⟨analyzer, -, h⟩ := Result.bind_eq_ok.1 h
    cases h
    rfl
  | some history =>
    have hs : ofSnapshot s = .ok e := by
      rw [ofSnapshot, hi]
      exact h
    rw [index, (ofSnapshot_history hh hs).1]

/-- In the run of additions to a restored engine no counter overflows exactly if there is room in
the count of documents and in each document frequency that came without a postings list, and the
lengths of the snapshot leave room for those of the documents that are taken in. -/
theorem counted_ofSnapshot_iff {s : Snapshot} {e : Engine β} (h : ofSnapshot s = .ok e)
    (words : s.index.InWords) (react : React (StateM σ) β) (additions : List Addition) (w : σ)
    (few : ∀ token,
      (((e.addAll react additions).run w).1.index.postingsOf token).size < 2 ^ 64) :
    let docs := additions.filterMap (Addition.document? e.analyzer)
    let taken := s.index.taken docs
    e.Counted react w additions ↔
      s.index.totalDocs + taken.length < 2 ^ 64 ∧
      (∀ token, token ∉ s.index.postings →
        s.index.docFreq token + (postingsIn taken token).length < 2 ^ 64) ∧
      ∀ done, done <+: docs →
        s.index.stats.exactSum + ((s.index.taken done).map fun d => d.tokens.length).sum <
          2 ^ 64 + ((s.index.taken done).map fun d => s.index.stats.lengths.getD d.id 0).sum := by
  intro docs taken
  obtain ⟨hr, hi⟩ := ofSnapshot_index h
  obtain ⟨-, hd, -⟩ := Index.restore_eq_ok.1 hr
  have hlisted : ∀ token ∈ s.index.postings,
      s.index.docFreq token + (postingsIn taken token).length < 2 ^ 64 := by
    intro token hm
    have hsize := few token
    rw [run_addAll_index, hi, Index.size_postingsOf_offerAll] at hsize
    rw [hd token hm]
    exact hsize
  have hroom : s.index.HasRoom docs ↔ s.index.totalDocs + taken.length < 2 ^ 64 ∧
      ∀ token, token ∉ s.index.postings →
        s.index.docFreq token + (postingsIn taken token).length < 2 ^ 64 := by
    refine ⟨fun hroom => ⟨hroom.total, fun token _ => hroom.docFreqs token⟩, ?_⟩
    rintro ⟨htotal, hfreqs⟩
    refine ⟨htotal, fun token => ?_⟩
    by_cases hm : token ∈ s.index.postings
    · exact hlisted token hm
    · exact hfreqs token hm
  have hsums : ∀ done, (s.index.offerAll done).stats.exactSum < 2 ^ 64 ↔
      s.index.stats.exactSum + ((s.index.taken done).map fun d => d.tokens.length).sum <
        2 ^ 64 + ((s.index.taken done).map fun d => s.index.stats.lengths.getD d.id 0).sum := by
    intro done
    have hsum := s.index.exactSum_offerAll done
    omega
  rw [counted_iff, hi, Index.counted_iff words, hroom, and_assoc]
  simp only [hsums, docs]

private def fullSnapshot : Snapshot where
  index := {
    documents := (∅ : Named Record).insert "1" ∅
    stats := ⟨(∅ : Named Nat).insert "1" (2 ^ 64 - 1), 2 ^ 64 - 2⟩ }
  config := ⟨.none, ∅, none, none⟩
  history := none

theorem counted_ofSnapshot_iff_full :
    let react : React (StateM Unit) Unit := fun _ _ => pure ((), .ok ())
    ∃ e : Engine Unit, ofSnapshot fullSnapshot = .ok e ∧ fullSnapshot.index.InWords ∧
      (∀ token, (((e.addAll react [⟨"2", ∅, some []⟩]).run ()).1.index.postingsOf token).size <
        2 ^ 64) ∧
      e.Counted react () [⟨"2", ∅, some []⟩] := by
  intro react
  obtain ⟨e, he⟩ : ∃ e : Engine Unit, ofSnapshot fullSnapshot = .ok e := ⟨_, rfl⟩
  have hwords : fullSnapshot.index.InWords := by
    refine ⟨by decide, fun token => ?_⟩
    simp [Index.docFreq, fullSnapshot]
  have hdocs : [⟨"2", ∅, some []⟩].filterMap (Addition.document? e.analyzer) =
      [⟨"2", [], ∅⟩] := rfl
  have htaken : fullSnapshot.index.taken [⟨"2", [], ∅⟩] = [⟨"2", [], ∅⟩] := rfl
  have hnone : ∀ token, postingsIn [⟨"2", [], ∅⟩] token = [] := fun _ => rfl
  have few : ∀ token, (((e.addAll react [⟨"2", ∅, some []⟩]).run ()).1.index.postingsOf token).size <
      2 ^ 64 := by
    intro token
    rw [run_addAll_index, (ofSnapshot_index he).2, Index.size_postingsOf_offerAll, hdocs, htaken,
      hnone]
    simp [Index.postingsOf, fullSnapshot]
  refine ⟨e, he, hwords, few, (counted_ofSnapshot_iff he hwords react _ () few).2 ?_⟩
  rw [hdocs, htaken, Index.forall_prefix_cons]
  refine ⟨by decide, fun token _ => ?_, by decide +kernel, fun done hd => ?_⟩
  · rw [hnone]
    exact hwords.docFreqs token
  · rw [List.prefix_nil.1 hd]
    decide +kernel

/-- A snapshot is restored whose two lengths add up to more than a word holds: the sum wraps to
nothing, and the average length is that of an index without tokens. -/
theorem restore_lengths_overflow :
    let s : Snapshot := { fullSnapshot with index := {
      documents := ((∅ : Named Record).insert "1" ∅).insert "2" ∅
      stats := ⟨((∅ : Named Nat).insert "1" (2 ^ 64 - 1)).insert "2" 1, 2⟩ } }
    ∃ e : Engine Unit, ofSnapshot s = .ok e ∧ e.index.stats.exactSum = 2 ^ 64 ∧
      e.index.stats.lengthSum = 0 ∧
      ∀ {α : Type} [Scalar α], (e.index.stats.averageLength : α) = Scalar.one := by
  refine ⟨_, rfl, by decide +kernel, by decide +kernel, rfl⟩

end Engine

end Concordance

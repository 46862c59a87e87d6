import Concordance.Proofs.Engine.Evaluation

/-!
Engines without history.  An engine over an index alone answers as the engine that the index comes
from, except where a token is searched for and a phrase is left to look for: this it refuses.
-/

namespace Concordance

namespace Query

/-- A query that is answered from a history alone: apart from stop words there is a token to search
for, and a phrase has a word. -/
structure NeedsHistory (q : Query) (s : StopWords) : Prop where
  token : ∃ word, s.contains word = false ∧ (word ∈ q.required ∨ word ∈ q.optional ∨
    (∀ term, term ∉ q.required ∧ term ∉ q.optional) ∧ ∃ phrase ∈ q.phrases, word ∈ phrase)
  phrase : ∃ phrase ∈ q.phrases, ∃ word ∈ phrase, s.contains word = false

variable (q : Query) (s : StopWords)

theorem searchTokens_ne_nil_iff : (q.searchTokens s).toList ≠ [] ↔
    ∃ word, s.contains word = false ∧ (word ∈ q.required ∨ word ∈ q.optional ∨
      (∀ term, term ∉ q.required ∧ term ∉ q.optional) ∧ ∃ phrase ∈ q.phrases, word ∈ phrase) := by
  rw [toList_searchTokens, ← List.length_pos_iff, List.length_pos_iff_exists_mem]
  exact exists_congr fun _ => mem_soughtWords

theorem phrases_removeStopWords_ne_nil_iff : (q.removeStopWords s).phrases ≠ [] ↔
    ∃ phrase ∈ q.phrases, ∃ word ∈ phrase, s.contains word = false := by
  rw [← List.length_pos_iff, List.length_pos_iff_exists_mem]
  simp [removeStopWords, StopWords.filter]

theorem needsHistory_iff : q.NeedsHistory s ↔
    (q.searchTokens s).toList ≠ [] ∧ (q.removeStopWords s).phrases ≠ [] := by
  rw [searchTokens_ne_nil_iff, phrases_removeStopWords_ne_nil_iff]
  exact ⟨fun h => ⟨h.token, h.phrase⟩, fun h => ⟨h.1, h.2⟩⟩

instance : Decidable (q.NeedsHistory s) := decidable_of_iff _ (q.needsHistory_iff s).symm

end Query

namespace Engine

variable {β γ σ α : Type} [Scalar α]

section Phrases

variable (e : Engine β) (q : Query)

theorem phrasesMatch?_of_nil (h : q.phrases = []) : e.phrasesMatch? q = .ok fun _ => true := by
  rw [phrasesMatch?, h]
  rfl

theorem phrasesMatch?_bare (h : q.phrases ≠ []) {index : Index} (he : e.documents = .bare index) :
    e.phrasesMatch? q = .error .missingTokenHistory := by
  have hn : q.phrases.isEmpty = false := by simpa using h
  rw [phrasesMatch?, hn, corpus?, he]
  rfl

end Phrases

def withoutHistory (e : Engine β) : Engine γ := ⟨e.analyzer, .bare e.index⟩

theorem config_withoutHistory (e : Engine β) : (e.withoutHistory : Engine γ).config = e.config := rfl

theorem parse_withoutHistory (e : Engine β) (text : String) :
    (e.withoutHistory : Engine γ).parse text = e.parse text := rfl

theorem hits_withoutHistory (e : Engine β) (score : Scorer α) (q : Query) (tokens : List String)
    (phrases : String → Bool) :
    (e.withoutHistory : Engine γ).hits score q tokens phrases = e.hits score q tokens phrases := rfl

section Search

variable (e : Engine β) (score : Scorer α) (text : String) (limit : Nat)

theorem search_withoutHistory_of_needs (hl : 0 < limit)
    (h : (Query.parse text).NeedsHistory e.config.stopWords) :
    (e.withoutHistory : Engine γ).search score text limit = .error .missingTokenHistory := by
  obtain ⟨ht, hp⟩ := (Query.needsHistory_iff _ _).1 h
  have hr : (e.withoutHistory : Engine γ).phrasesMatch? (e.parse text) =
      .error .missingTokenHistory := phrasesMatch?_bare _ _ hp rfl
  unfold search
  simp only [config_withoutHistory, parse_withoutHistory, List.isEmpty_iff, ht, hl.ne', hr,
    Bool.or_eq_true, beq_iff_eq, or_self, if_false]
  rfl

theorem search_withoutHistory_of_not_needs
    (h : ¬ (0 < limit ∧ (Query.parse text).NeedsHistory e.config.stopWords)) :
    (e.withoutHistory : Engine γ).search score text limit = e.search score text limit := by
  unfold search
  simp only [config_withoutHistory, parse_withoutHistory, hits_withoutHistory]
  refine ite_congr rfl (fun _ => rfl) fun hn => ?_
  obtain ⟨ht, hl⟩ : ((Query.parse text).searchTokens e.config.stopWords).toList ≠ [] ∧
      limit ≠ 0 := by
    simpa only [Bool.or_eq_true, List.isEmpty_iff, beq_iff_eq, not_or] using hn
  have hp : (e.parse text).phrases = [] := by
    by_contra hp
    exact h ⟨Nat.pos_of_ne_zero hl, (Query.needsHistory_iff _ _).2 ⟨ht, hp⟩⟩
  rw [phrasesMatch?_of_nil _ _ hp, phrasesMatch?_of_nil _ _ hp]

end Search

/-- An engine over the index of a grown engine, with the same settings, refuses exactly the queries
that need a history, and answers all others as the grown engine does; that one answers every query. -/
theorem search_ofIndex (react : React (StateM σ) β) {e : Engine β} (h : e.Grown react) :
    ∃ bare : Engine γ, Engine.ofIndex e.index e.config = .ok bare ∧ bare.hasHistory = false ∧
      ∀ (score : Scorer α) (text : String) (limit : Nat),
        (∃ hits, e.search score text limit = .ok hits) ∧
        (bare.search score text limit = .error .missingTokenHistory ↔
          0 < limit ∧ (Query.parse text).NeedsHistory e.config.stopWords) ∧
        (¬ (0 < limit ∧ (Query.parse text).NeedsHistory e.config.stopWords) →
          bare.search score text limit = e.search score text limit) := by
  obtain ⟨docs, hd⟩ := h.holds
  have hb : (Engine.ofIndex e.index e.config : Result (Engine γ)) = .ok e.withoutHistory :=
    Result.bind_eq_ok.2 ⟨_, hd.sound, rfl⟩
  refine ⟨e.withoutHistory, hb, rfl, fun score text limit => ?_⟩
  have hs := hd.search_eq score text limit
  have hsame := e.search_withoutHistory_of_not_needs (γ := γ) score text limit
  refine ⟨⟨_, hs⟩, ⟨fun hm => ?_, fun hn => ?_⟩, hsame⟩
  · by_contra hn
    rw [hsame hn, hs] at hm
    cases hm
  · exact e.search_withoutHistory_of_needs score text limit hn.1 hn.2

theorem search_ofIndex_foxes :
    let fox : Record :=
      .ofList [("id", Json.str "1"), ("text", Json.str "The quick red fox")] compare
    let hen : Record := .ofList [("id", Json.str "2"), ("text", Json.str "a red hen")] compare
    let score : Scorer Double := Ranking.termFrequency.scorer
    ∃ e bare : Engine Unit, Engine.ofRecords [fox, hen] {} = .ok e ∧
      e.Grown (σ := Unit) (fun _ _ => pure ((), .ok ())) ∧
      Engine.ofIndex e.index e.config = .ok bare ∧
      bare.search score "\"quick red\" -hen" 10 = .error .missingTokenHistory ∧
      bare.search score "\"quick red\" -hen" 0 = e.search score "\"quick red\" -hen" 0 ∧
      bare.search score "red \"the\" -hen" 10 = e.search score "red \"the\" -hen" 10 := by
  intro fox hen score
  obtain ⟨e, he, -⟩ : ∃ e : Engine Unit, Engine.ofRecords [fox, hen] {} = .ok e ∧ true = true :=
    Result.exists_of_any (by decide +kernel)
  have hg : e.Grown (σ := Unit) (fun _ _ => pure ((), .ok ())) := .ofRecords he
  obtain ⟨bare, hb, -, hs⟩ := search_ofIndex (γ := Unit) (α := Double) _ hg
  rw [(ofRecords_holds he).1] at hs
  refine ⟨e, bare, he, hg, hb, ?_, ?_, ?_⟩
  · exact (hs score _ 10).2.1.2 (by decide +kernel)
  · exact (hs score _ 0).2.2 (by decide)
  · exact (hs score _ 10).2.2 (by decide +kernel)

end Engine

end Concordance

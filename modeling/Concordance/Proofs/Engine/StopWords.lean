import Concordance.Proofs.Engine.Evaluation
import Concordance.Proofs.Query.StopWords

namespace Concordance

namespace Query.SameBut

variable {s : StopWords} {q p : Query} (h : q.SameBut s p)
include h

theorem removeFrom_terms : s.removeFrom q.terms = s.removeFrom p.terms :=
  Std.ExtTreeSet.ext_mem fun word => by
    rw [StopWords.mem_removeFrom, StopWords.mem_removeFrom]
    exact and_congr_left fun hs => h.terms word hs

theorem searchTokens {term : String} (ht : term ∈ q.terms) : q.searchTokens s = p.searchTokens s := by
  rw [searchTokens_of_mem_terms ht, searchTokens_of_mem_terms (h.subset term ht), h.removeFrom_terms]

theorem admits : (q.removeStopWords s).admits = (p.removeStopWords s).admits := by
  have he : s.removeFrom q.excluded = s.removeFrom p.excluded :=
    Std.ExtTreeSet.ext_mem fun word => by
      rw [StopWords.mem_removeFrom, StopWords.mem_removeFrom]
      exact and_congr_left fun hs => h.excluded word hs
  have ht : ∀ q : Query, (q.removeStopWords s).terms = s.removeFrom q.terms := fun q =>
    Std.ExtTreeSet.ext_mem fun word => by
      simp only [mem_terms, removeStopWords, StopWords.mem_removeFrom, or_and_right]
  funext index id
  unfold Query.admits
  rw [ht, ht, h.removeFrom_terms]
  cases hh : q.hasOr with
  | true =>
    have hh' : p.hasOr = true := by rw [← h.hasOr, hh]
    simp only [removeStopWords, he, hh, hh', if_true]
  | false =>
    have hh' : p.hasOr = false := by rw [← h.hasOr, hh]
    have hr : s.removeFrom q.required = s.removeFrom p.required :=
      Std.ExtTreeSet.ext_mem fun word => by
        rw [StopWords.mem_removeFrom, StopWords.mem_removeFrom]
        exact and_congr_left fun hs => h.required hh word hs
    simp only [removeStopWords, he, hr, hh, hh', Bool.false_eq_true, if_false]

end Query.SameBut

namespace Engine

variable {β α : Type} [Scalar α]

/-- Queries that differ in stop words alone find the same. -/
theorem search_sameBut (e : Engine β) (score : Scorer α) (limit : Nat) {text other : String}
    (h : (Query.parse text).SameBut e.config.stopWords (Query.parse other)) {term : String}
    (ht : term ∈ (Query.parse text).terms) :
    e.search score text limit = e.search score other limit := by
  have hp : e.phrasesMatch? (e.parse text) = e.phrasesMatch? (e.parse other) := by
    unfold phrasesMatch? Query.phrasesIn Engine.parse
    rw [h.phrases]
  have hh : e.hits score (e.parse text) = e.hits score (e.parse other) := by
    funext tokens phrases
    unfold hits Engine.parse
    rw [h.admits]
  unfold search
  simp only [h.searchTokens ht, hp, hh]

/-- Where a query has a term, one more stop word that is no `or` and has neither a quote nor a minus
sign in front changes no hit, wherever it stands and however it is cased. -/
theorem search_stopWord (e : Engine β) (score : Scorer α) (limit : Nat) {text longer word : String}
    {before after : List String} (hb : blankWords text = before ++ after)
    (hl : blankWords longer = before ++ word :: after)
    (hs : e.config.stopWords.contains (lowercase word) = true)
    (hq : '"' ∉ (lowercase word).toList) (hm : (lowercase word).toList.head? ≠ some '-')
    (ho : lowercase word ≠ "or") (hterm : ∃ term, term ∈ (Query.parse text).terms) :
    e.search score longer limit = e.search score text limit := by
  obtain ⟨term, ht⟩ := hterm
  exact (e.search_sameBut score limit (Query.parse_stopWord hb hl hs hq hm ho) ht).symm

theorem search_stopWord_foxes :
    let fox : Record :=
      .ofList [("id", Json.str "1"), ("text", Json.str "The quick red fox")] compare
    let hen : Record := .ofList [("id", Json.str "2"), ("text", Json.str "a red hen")] compare
    let score : Scorer Double := Ranking.tfIdf.scorer
    ∃ e : Engine Unit, Engine.ofRecords [fox, hen] {} = .ok e ∧
      blankWords "quick OR hen" = ["quick", "OR"] ++ ["hen"] ∧
      blankWords "quick OR tHE hen" = ["quick", "OR"] ++ "tHE" :: ["hen"] ∧
      e.config.stopWords.contains (lowercase "tHE") = true ∧
      '"' ∉ (lowercase "tHE").toList ∧ (lowercase "tHE").toList.head? ≠ some '-' ∧
      lowercase "tHE" ≠ "or" ∧ (∃ term, term ∈ (Query.parse "quick OR hen").terms) ∧
      e.search score "quick OR tHE hen" 10 = e.search score "quick OR hen" 10 := by
  intro fox hen score
  obtain ⟨e, he, hs⟩ : ∃ e : Engine Unit, Engine.ofRecords [fox, hen] {} = .ok e ∧
      e.config.stopWords.contains (lowercase "tHE") = true :=
    Result.exists_of_any (by decide +kernel)
  have hb : blankWords "quick OR hen" = ["quick", "OR"] ++ ["hen"] := by decide +kernel
  have hl : blankWords "quick OR tHE hen" = ["quick", "OR"] ++ "tHE" :: ["hen"] := by
    decide +kernel
  have hq : '"' ∉ (lowercase "tHE").toList := by decide +kernel
  have hm : (lowercase "tHE").toList.head? ≠ some '-' := by decide +kernel
  have ho : lowercase "tHE" ≠ "or" := by decide +kernel
  have ht : ∃ term, term ∈ (Query.parse "quick OR hen").terms := ⟨"hen", by decide +kernel⟩
  exact ⟨e, he, hb, hl, hs, hq, hm, ho, ht, search_stopWord e score 10 hb hl hs hq hm ho ht⟩

end Engine

end Concordance

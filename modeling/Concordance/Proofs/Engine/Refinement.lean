import Concordance.Proofs.Engine.Found
import Concordance.Proofs.Query.Extension

namespace Concordance

namespace Query

variable {q : Query} {s : StopWords} {tokens : List String} {word term : String}

theorem mem_terms_addOptional (h : term ∈ q.terms) (word : String) :
    term ∈ (q.addOptional word).terms := by
  rw [mem_terms] at h ⊢
  exact h.imp_right fun ho => Std.ExtTreeSet.mem_insert.2 (.inr ho)

theorem Matches.addOptional (h : q.Matches s tokens) (ho : q.hasOr = false → q.optional = ∅)
    (ht : term ∈ q.terms) (hs : s.contains term = false) (word : String) :
    (q.addOptional word).Matches s tokens := by
  obtain ⟨token, hw, hi⟩ := h.exists_soughtWord ho ((mem_soughtWords_of_mem_terms ht).2 ⟨ht, hs⟩)
  obtain ⟨hm, hn⟩ := (mem_soughtWords_of_mem_terms ht).1 hw
  have hm := mem_terms.1 (mem_terms_addOptional hm word)
  exact ⟨h.excluded, ⟨token, hm, hn, hi⟩, h.phrases⟩

theorem Matches.of_addExcluded (h : (q.addExcluded word).Matches s tokens) : q.Matches s tokens :=
  ⟨fun other ho => h.excluded other (Std.ExtTreeSet.mem_insert.2 (.inr ho)), h.wanted, h.phrases⟩

theorem Matches.of_addPhrase {phrase : List String} (h : (q.addPhrase phrase).Matches s tokens) :
    q.Matches s tokens := by
  rw [addPhrase_eq] at h
  exact ⟨h.excluded, h.wanted, fun other ho => h.phrases other (List.mem_append_left _ ho)⟩

end Query

namespace Engine

variable {β σ : Type} {react : React (StateM σ) β} {e : Engine β}

section Found

variable {text word term : String}

variable (ht : term ∈ (Query.parse text).terms)
include ht

/-- A query that has all terms of another and asks for all documents that the other asks for finds no
less. -/
theorem counted_subset {other : String}
    (hterms : ∀ word ∈ (Query.parse text).terms, word ∈ (Query.parse other).terms)
    (h : ∀ tokens, (Query.parse text).Matches e.config.stopWords tokens →
      (Query.parse other).Matches e.config.stopWords tokens) : e.counted text ⊆ e.counted other := by
  have hsought : e.soughtWords text ⊆ e.soughtWords other := fun word hw => by
    obtain ⟨hm, hn⟩ := (Query.mem_soughtWords_of_mem_terms ht).1 hw
    exact (Query.mem_soughtWords_of_mem_terms (hterms term ht)).2 ⟨hterms word hm, hn⟩
  intro id hc
  obtain ⟨hf, word, hw, hn⟩ := mem_counted.1 hc
  obtain ⟨-, hd, hm⟩ := mem_found.1 hf
  exact mem_counted.2 ⟨mem_found.2 ⟨List.ne_nil_of_mem (hsought hw), hd, h _ hm⟩,
    word, hsought hw, hn⟩

variable (hc : PhrasesClosed text)
include hc

theorem counted_subset_or (hs : e.config.stopWords.contains term = false) (hw : IsTerm word)
    (ho : word ≠ "or") : e.counted text ⊆ e.counted (text ++ " OR " ++ word) := by
  have hp := Query.parse_or hc hw ho
  refine counted_subset ht (fun other hm => ?_) fun tokens hf => ?_
  · rw [hp]
    exact Query.mem_terms_addOptional hm word
  · rw [hp]
    exact hf.addOptional Query.optional_eq_empty ht hs word

theorem counted_exclude_subset (hw : IsExcludable word) :
    e.counted (text ++ " -" ++ word) ⊆ e.counted text := by
  have hp := Query.parse_exclude hc hw
  have hterms : (Query.parse (text ++ " -" ++ word)).terms = (Query.parse text).terms := by
    rw [hp]
    rfl
  refine counted_subset (hterms ▸ ht) (fun other hm => hterms ▸ hm) fun tokens hf => ?_
  rw [hp] at hf
  exact hf.of_addExcluded

theorem counted_quote_subset {phrase : List String} (hw : IsPhrase phrase) :
    e.counted (text ++ " " ++ Query.writePhrase phrase) ⊆ e.counted text := by
  have hp := Query.parse_quote hc hw
  have hterms : (Query.parse (text ++ " " ++ Query.writePhrase phrase)).terms =
      (Query.parse text).terms := by
    rw [hp, Query.addPhrase_eq]
    rfl
  refine counted_subset (hterms ▸ ht) (fun other hm => hterms ▸ hm) fun tokens hf => ?_
  rw [hp] at hf
  exact hf.of_addPhrase

end Found

/-- With room for all documents, a query that leaves no phrase open and has a term that is no stop word
finds no less with one more optional word, and no more with one more excluded word or with one more
phrase of one word. -/
theorem search_refined (h : e.Grown react) {text word : String} (hc : PhrasesClosed text)
    (hs : ∃ term ∈ (Query.parse text).terms, e.config.stopWords.contains term = false)
    (hn : word ≠ "") (hw : ∀ c ∈ word.toList, c.isLower = true) (ho : word ≠ "or") {limit : Nat}
    (hl : e.index.documents.size ≤ limit) :
    ∃ hits wider without within : List (Hit Double),
      e.search byFrequency text limit = .ok hits ∧
      e.search byFrequency (text ++ " OR " ++ word) limit = .ok wider ∧
      e.search byFrequency (text ++ " -" ++ word) limit = .ok without ∧
      e.search byFrequency (text ++ " \"" ++ word ++ "\"") limit = .ok within ∧
      hits.map Hit.id ⊆ wider.map Hit.id ∧ without.map Hit.id ⊆ hits.map Hit.id ∧
      within.map Hit.id ⊆ hits.map Hit.id := by
  obtain ⟨docs, hd⟩ := h.holds
  obtain ⟨term, ht, hs⟩ := hs
  have hterm := isTerm_of_letters hn hw
  have hq : text ++ " \"" ++ word ++ "\"" = text ++ " " ++ Query.writePhrase [word] := by
    simp [← String.toList_inj, Query.writePhrase]
  obtain ⟨hits, he, hf⟩ := hd.search_byFrequency text hl
  obtain ⟨wider, hwe, hwf⟩ := hd.search_byFrequency (text ++ " OR " ++ word) hl
  obtain ⟨without, hoe, hof⟩ := hd.search_byFrequency (text ++ " -" ++ word) hl
  obtain ⟨within, hie, hif⟩ := hd.search_byFrequency (text ++ " \"" ++ word ++ "\"") hl
  refine ⟨hits, wider, without, within, he, hwe, hoe, hie, ?_, ?_, ?_⟩
  · rw [hf.subset_congr_left, hwf.subset_congr_right]
    exact counted_subset_or ht hc hs hterm ho
  · rw [hof.subset_congr_left, hf.subset_congr_right]
    exact counted_exclude_subset ht hc hterm.toIsExcludable
  · rw [hif.subset_congr_left, hf.subset_congr_right, hq]
    exact counted_quote_subset ht hc hterm.isPhrase

theorem search_refined_foxes :
    let fox : Record :=
      .ofList [("id", Json.str "1"), ("text", Json.str "The quick red fox")] compare
    let hen : Record := .ofList [("id", Json.str "2"), ("text", Json.str "a red hen")] compare
    ∃ e : Engine Unit, Engine.ofRecords [fox, hen] {} = .ok e ∧
      e.Grown (σ := Unit) (fun _ _ => pure ((), .ok ())) ∧ PhrasesClosed "fox \"the red\"" ∧
      (∃ term ∈ (Query.parse "fox \"the red\"").terms,
        e.config.stopWords.contains term = false) ∧
      "the" ≠ "" ∧ (∀ c ∈ "the".toList, c.isLower = true) ∧ "the" ≠ "or" ∧
      e.index.documents.size ≤ 2 ∧
      ∃ hits wider without within : List (Hit Double),
        e.search byFrequency "fox \"the red\"" 2 = .ok hits ∧
        e.search byFrequency ("fox \"the red\"" ++ " OR " ++ "the") 2 = .ok wider ∧
        e.search byFrequency ("fox \"the red\"" ++ " -" ++ "the") 2 = .ok without ∧
        e.search byFrequency ("fox \"the red\"" ++ " \"" ++ "the" ++ "\"") 2 = .ok within ∧
        hits.map Hit.id ⊆ wider.map Hit.id ∧ without.map Hit.id ⊆ hits.map Hit.id ∧
        within.map Hit.id ⊆ hits.map Hit.id := by
  intro fox hen
  obtain ⟨e, he, hok⟩ : ∃ e : Engine Unit, Engine.ofRecords [fox, hen] {} = .ok e ∧
      decide (e.config.stopWords.contains "fox" = false ∧ e.index.documents.size ≤ 2) = true :=
    Result.exists_of_any (by decide +kernel)
  obtain ⟨hf, hl⟩ := of_decide_eq_true hok
  have hg : e.Grown (σ := Unit) (fun _ _ => pure ((), .ok ())) := .ofRecords he
  have hc : PhrasesClosed "fox \"the red\"" := by decide +kernel
  have hs : ∃ term ∈ (Query.parse "fox \"the red\"").terms,
      e.config.stopWords.contains term = false := ⟨"fox", by decide +kernel, hf⟩
  have hw : ∀ c ∈ "the".toList, c.isLower = true := by simp
  exact ⟨e, he, hg, hc, hs, by decide, hw, by decide, hl,
    search_refined hg hc hs (by decide) hw (by decide) hl⟩

end Engine

end Concordance

import Concordance.Proofs.Engine.Found
import Concordance.Proofs.Engine.Stored
import Concordance.Proofs.Query.Rendering

/-!
Single words as queries.  A query is cut at blanks only and a text at everything that is no word
character, so a text that is a word is found by this word exactly if the word is one token.
-/

namespace Concordance

/-- A word in which a query sees no signs: no blank and no quote in it, no minus sign in front. -/
structure IsPlain (word : String) : Prop where
  chars : ∀ c ∈ word.toList, isBlank c = false ∧ c ≠ '"'
  unsigned : word.toList.head? ≠ some '-'
  not_or : lowercase word ≠ "or"

instance (word : String) : Decidable (IsPlain word) :=
  decidable_of_iff ((word.toList.all fun c => !isBlank c && c != '"') ∧
      word.toList.head? ≠ some '-' ∧ lowercase word ≠ "or")
    ⟨fun ⟨hc, hu, ho⟩ => ⟨by simpa using hc, hu, ho⟩,
      fun h => ⟨by simpa using h.chars, h.unsigned, h.not_or⟩⟩

section Word

variable {word : String}

theorem toList_ne_nil_of_lowercase (hn : (lowercase word).toList ≠ []) : word.toList ≠ [] := by
  intro he
  rw [toList_lowercase, he] at hn
  exact hn rfl

theorem Query.parse_plain (h : IsPlain word) (hn : (lowercase word).toList ≠ []) :
    Query.parse word = ({} : Query).addRequired (lowercase word) := by
  have hq : '"' ∉ (lowercase word).toList := fun hm => by
    rw [toList_lowercase] at hm
    exact (h.chars _ (mem_of_mem_lowerFrom (by decide) (by decide) hm)).2 rfl
  have hf : (lowercase word).toList.head? ≠ some '"' := fun he => hq (List.mem_of_head? he)
  have hm : (lowercase word).toList.head? ≠ some '-' := fun he => by
    rw [toList_lowercase] at he
    exact h.unsigned (head?_of_head?_lowerFrom (by decide) (by decide) he)
  have ho : (lowercase word).toList ≠ ['o', 'r'] := fun he =>
    h.not_or (String.toList_injective (he.trans rfl))
  have ht : trimBoth isQuote (lowercase word).toList = (lowercase word).toList :=
    trimBoth_isQuote_eq_self hf fun he => hq (List.mem_of_getLast? he)
  have hw : queryWords word = [lowercase word] := by
    rw [queryWords, blankWords_eq_singleton (toList_ne_nil_of_lowercase hn)
      fun c hc => (h.chars c hc).1]
    rfl
  have hr : QueryReader.outside {} (lowercase word).toList =
      QueryReader.addTerm {} (lowercase word).toList := by
    rw [QueryReader.outside_eq_addTerm ho hf hm, ht]
  show (QueryReader.read {} word).finish = _
  rw [QueryReader.read, hw]
  show (QueryReader.outside {} (lowercase word).toList).finish = _
  rw [hr, QueryReader.addTerm, if_neg (by simpa using hn), String.ofList_toList]
  rfl

theorem Tokenizer.lowercase_ne_nil_of_mem {token : String} (h : token ∈ unigrams word) :
    (lowercase word).toList ≠ [] := by
  obtain ⟨run, hr, -⟩ := List.mem_map.1 h
  intro he
  rw [he] at hr
  cases hr

theorem Query.mem_soughtWords_required {s : StopWords} {other : String} :
    other ∈ (({} : Query).addRequired word).soughtWords s ↔
      s.contains word = false ∧ other = word := by
  have ht : word ∈ (({} : Query).addRequired word).terms := by
    rw [mem_terms]
    simp [addRequired]
  rw [mem_soughtWords_of_mem_terms ht, mem_terms]
  simp only [addRequired, Std.ExtTreeSet.mem_insert, Std.LawfulEqCmp.compare_eq_iff_eq,
    Std.ExtTreeSet.not_mem_empty, or_false]
  constructor
  · rintro ⟨rfl, hs⟩
    exact ⟨hs, rfl⟩
  · rintro ⟨hs, rfl⟩
    exact ⟨rfl, hs⟩

theorem Query.required_matches_iff {s : StopWords} (hs : s.contains word = false)
    {tokens : List String} :
    (({} : Query).addRequired word).Matches s tokens ↔ word ∈ tokens := by
  rw [matches_iff]
  simp [addRequired, hs]

end Word

namespace Engine

variable {β : Type}

section Plain

variable {e : Engine β} {word id : String} (hp : IsPlain word) (hn : (lowercase word).toList ≠ [])
include hp hn

theorem mem_soughtWords_plain {other : String} : other ∈ e.soughtWords word ↔
    e.config.stopWords.contains (lowercase word) = false ∧ other = lowercase word := by
  rw [soughtWords, Query.parse_plain hp hn, Query.mem_soughtWords_required]

theorem Holds.mem_found_plain {docs : List Document} (h : e.Holds docs) : id ∈ e.found word ↔
    e.config.stopWords.contains (lowercase word) = false ∧ lowercase word ∈ e.tokens id := by
  have hne : e.soughtWords word ≠ [] ↔ e.config.stopWords.contains (lowercase word) = false := by
    constructor
    · intro hs
      obtain ⟨other, hm⟩ := List.exists_mem_of_ne_nil _ hs
      exact ((mem_soughtWords_plain hp hn).1 hm).1
    · exact fun hs => List.ne_nil_of_mem ((mem_soughtWords_plain hp hn).2 ⟨hs, rfl⟩)
  rw [mem_found, hne, Query.parse_plain hp hn]
  refine and_congr_right fun hs => ?_
  rw [Query.required_matches_iff hs]
  exact ⟨fun hm => hm.2, fun hm => ⟨h.hasDocument_of_mem hm, hm⟩⟩

/-- A plain word is looked for by its count, as far as a word of 32 bits counts. -/
theorem Holds.mem_counted_plain {docs : List Document} (h : e.Holds docs) : id ∈ e.counted word ↔
    e.config.stopWords.contains (lowercase word) = false ∧
      (e.tokens id).count (lowercase word) % 2 ^ 32 ≠ 0 := by
  rw [mem_counted, h.mem_found_plain hp hn]
  simp only [mem_soughtWords_plain hp hn]
  constructor
  · rintro ⟨-, _, ⟨hs, rfl⟩, hc⟩
    exact ⟨hs, hc⟩
  · rintro ⟨hs, hc⟩
    have hm : lowercase word ∈ e.tokens id := by
      by_contra hn
      rw [List.count_eq_zero_of_not_mem hn] at hc
      exact hc rfl
    exact ⟨⟨hs, hm⟩, _, ⟨hs, rfl⟩, hc⟩

end Plain

/-- A text that is a plain word is found by this word exactly if, in lowercase, all characters of
the word are word characters, unless the word occurs so often that its count overflows; with any other
character the word finds nothing at all. -/
theorem search_plain_word {records : List Record} {config : Config} {e : Engine β}
    (he : Engine.ofRecords records config = .ok e)
    (hu : config.ngram = none ∨ config.ngram = some 1) {word : String} (hp : IsPlain word)
    (ht : ∃ token ∈ e.analyzer.tokenizer.tokenize word, e.config.stopWords.contains token = false)
    {id field : String} {record : Record} (hd : e.index.metadata? id = some record)
    (hf : field ∈ config.effectiveFields) (hw : record[field]? = some (.str word)) {limit : Nat}
    (hl : e.index.documents.size ≤ limit) :
    ∃ hits, e.search byFrequency word limit = .ok hits ∧
      ((e.tokens id).count (lowercase word) < 2 ^ 32 →
        (id ∈ hits.map Hit.id ↔ ∀ c ∈ (lowercase word).toList, isWord c = true)) ∧
      ((∃ c ∈ (lowercase word).toList, isWord c = false) → hits = []) := by
  obtain ⟨hc, docs, hh, -⟩ := ofRecords_holds he
  have hg : e.Grown (σ := Unit) (fun subscriber _ => pure (subscriber, .ok ())) := .ofRecords he
  obtain ⟨hits, hs, hperm⟩ := hh.search_byFrequency word hl
  obtain ⟨token, htok, hstop⟩ := ht
  have hunigram : e.analyzer.tokenizer.ngram = none ∨ e.analyzer.tokenizer.ngram = some 1 := by
    obtain ⟨-, hn, -⟩ := Analyzer.ofConfig_eq_ok.1 hh.sound
    rwa [Analyzer.ngram_of_ofNgram hn, hc]
  rw [Tokenizer.tokenize_single hunigram] at htok
  have hn := Tokenizer.lowercase_ne_nil_of_mem htok
  have hword : ∀ {other}, other ∈ hits.map Hit.id → IsToken (lowercase word) := fun hm =>
    (hg.isToken ((hh.mem_found_plain hp hn).1 (mem_counted.1 (hperm.mem_iff.1 hm)).1).2).1
  refine ⟨hits, hs, fun fit => ⟨fun hm c hc => ((hword hm).chars c hc).1, fun hall => ?_⟩, ?_⟩
  · have hone := Tokenizer.unigrams_eq_singleton hn hall
    have hx : fieldText record field = word := by simp [fieldText, hw, Json.str?]
    have hm : lowercase word ∈ e.analyzer.tokenizer.tokenize (fieldText record field) := by
      rw [hx, Tokenizer.tokenize_single hunigram, hone]
      exact List.mem_singleton_self _
    rw [hone, List.mem_singleton] at htok
    rw [htok] at hstop
    rw [← hc] at hf
    have hmem := (Analyzer.mem_documentTokens (ofRecords_tokens he hd)).2 ⟨⟨field, hf, hm⟩, hstop⟩
    rw [hperm.mem_iff, hh.mem_counted_plain hp hn, Nat.mod_eq_of_lt fit]
    exact ⟨hstop, (List.count_pos_iff.2 hmem).ne'⟩
  · rintro ⟨c, hm, hc⟩
    refine List.eq_nil_iff_forall_not_mem.2 fun hit hhit => ?_
    exact (hword (List.mem_map_of_mem hhit)).not_mem hc hm

theorem search_plain_word_fox :
    let record : Record := .ofList [("id", .str "1"), ("text", .str "Fox_7")] compare
    ∃ e : Engine Unit, Engine.ofRecords [record] {} = .ok e ∧ IsPlain "Fox_7" ∧
      (∃ token ∈ e.analyzer.tokenizer.tokenize "Fox_7",
        e.config.stopWords.contains token = false) ∧
      e.index.metadata? "1" = some record ∧ "text" ∈ ({} : Config).effectiveFields ∧
      record["text"]? = some (.str "Fox_7") ∧ e.index.documents.size ≤ 1 ∧
      (e.tokens "1").count (lowercase "Fox_7") < 2 ^ 32 ∧
      ∃ hits, e.search byFrequency "Fox_7" 1 = .ok hits ∧
        ("1" ∈ hits.map Hit.id ↔ ∀ c ∈ (lowercase "Fox_7").toList, isWord c = true) ∧
        ((∃ c ∈ (lowercase "Fox_7").toList, isWord c = false) → hits = []) := by
  intro record
  obtain ⟨e, he, hok⟩ : ∃ e : Engine Unit, Engine.ofRecords [record] {} = .ok e ∧
      decide ((∃ token ∈ e.analyzer.tokenizer.tokenize "Fox_7",
        e.config.stopWords.contains token = false) ∧
        e.index.hasDocument "1" ∧ e.index.documents.size ≤ 1 ∧
        (e.tokens "1").count (lowercase "Fox_7") < 2 ^ 32) = true :=
    Result.exists_of_any (by decide +kernel)
  obtain ⟨ht, hd, hl, fit⟩ := of_decide_eq_true hok
  obtain ⟨stored, hm, hd, -⟩ := ofRecords_metadata he hd
  rw [List.mem_singleton.1 hm] at hd
  have hp : IsPlain "Fox_7" := by decide +kernel
  have hf : "text" ∈ ({} : Config).effectiveFields := by decide +kernel
  obtain ⟨hits, hs, hfound, hnone⟩ := search_plain_word he (.inl rfl) hp ht hd hf rfl hl
  exact ⟨e, he, hp, ht, hd, hf, rfl, hl, fit, hits, hs, hfound fit, hnone⟩

/-- Behind a mark that is no word character a word is not found, though the text is this word and
has a token. -/
theorem search_marked_word :
    let record : Record := .ofList [("id", .str "1"), ("text", .str "fox!")] compare
    ∃ e : Engine Unit, Engine.ofRecords [record] {} = .ok e ∧ IsPlain "fox!" ∧
      (∃ token ∈ e.analyzer.tokenizer.tokenize "fox!",
        e.config.stopWords.contains token = false) ∧
      e.index.metadata? "1" = some record ∧ record["text"]? = some (.str "fox!") ∧
      e.index.documents.size ≤ 1 ∧ e.search byFrequency "fox!" 1 = .ok [] := by
  intro record
  obtain ⟨e, he, hok⟩ : ∃ e : Engine Unit, Engine.ofRecords [record] {} = .ok e ∧
      decide ((∃ token ∈ e.analyzer.tokenizer.tokenize "fox!",
        e.config.stopWords.contains token = false) ∧
        e.index.hasDocument "1" ∧ e.index.documents.size ≤ 1 ∧
        (e.search byFrequency "fox!" 1).toOption.any List.isEmpty) = true :=
    Result.exists_of_any (by decide +kernel)
  obtain ⟨ht, hd, hl, hs⟩ := of_decide_eq_true hok
  obtain ⟨stored, hm, hd, -⟩ := ofRecords_metadata he hd
  rw [List.mem_singleton.1 hm] at hd
  obtain ⟨hits, hs, hempty⟩ := Result.exists_of_any hs
  rw [List.isEmpty_iff.1 hempty] at hs
  exact ⟨e, he, by decide +kernel, ht, hd, rfl, hl, hs⟩

end Engine

end Concordance

import Concordance.Proofs.Query.Grammar

namespace Concordance

variable {s : StopWords}

namespace Query

/-- Queries that ask the same once stop words are left out; the second has all terms of the first.
With an `or` it does not matter which terms are required. -/
structure SameBut (s : StopWords) (q p : Query) : Prop where
  hasOr : q.hasOr = p.hasOr
  subset : ∀ word ∈ q.terms, word ∈ p.terms
  terms : ∀ word, s.contains word = false → (word ∈ q.terms ↔ word ∈ p.terms)
  required : q.hasOr = false → ∀ word, s.contains word = false →
    (word ∈ q.required ↔ word ∈ p.required)
  excluded : ∀ word, s.contains word = false → (word ∈ q.excluded ↔ word ∈ p.excluded)
  phrases : (q.removeStopWords s).phrases = (p.removeStopWords s).phrases

variable {q p : Query}

theorem sameBut_refl (s : StopWords) (q : Query) : q.SameBut s q :=
  ⟨rfl, fun _ => id, fun _ _ => Iff.rfl, fun _ _ _ => Iff.rfl, fun _ _ => Iff.rfl, rfl⟩

theorem SameBut.addPhrase (h : q.SameBut s p) {words others : List String}
    (hw : s.filter words = s.filter others) :
    (q.addPhrase words).SameBut s (p.addPhrase others) := by
  have hp : ∀ (q : Query) (words : List String), ((q.addPhrase words).removeStopWords s).phrases =
      (q.removeStopWords s).phrases ++ [s.filter words].filter fun phrase => !phrase.isEmpty := by
    intro q words
    rw [addPhrase_eq]
    by_cases hn : words = []
    · simp [removeStopWords, hn, StopWords.filter]
    · simp [removeStopWords, hn]
  have hq := hp q words
  have hq' := hp p others
  rw [hw, h.phrases, ← hq'] at hq
  rw [addPhrase_eq, addPhrase_eq] at hq ⊢
  exact ⟨h.hasOr, h.subset, h.terms, h.required, h.excluded, hq⟩

end Query

namespace QueryReader

/-- Readers that have read the same but for stop words.  An `or` may wait in one of them alone, once
there has been one. -/
structure Alike (s : StopWords) (r t : QueryReader) : Prop where
  query : r.query.SameBut s t.query
  afterOr : r.query.hasOr = false → r.afterOr = t.afterOr
  phrase : r.phrase.map s.filter = t.phrase.map s.filter

variable {r t : QueryReader} {word : List Char}

theorem filter_pushWord (s : StopWords) (words : List String) (word : List Char) :
    s.filter (pushWord words word) = s.filter words ++ s.filter (pushWord [] word) := by
  simp [pushWord_eq, StopWords.filter]

section Term

theorem mem_terms_addTerm {other : String} : other ∈ (r.addTerm word).query.terms ↔
    other ∈ r.query.terms ∨ word ≠ [] ∧ other = String.ofList word := by
  unfold addTerm
  by_cases hn : word = []
  · simp [hn]
  · rw [if_neg (by simpa using hn)]
    dsimp only
    split
    · simp only [Query.mem_terms, Std.ExtTreeSet.mem_insert, Std.LawfulEqCmp.compare_eq_iff_eq]
      grind
    · simp only [Query.mem_terms, Std.ExtTreeSet.mem_insert, Std.LawfulEqCmp.compare_eq_iff_eq]
      grind

theorem mem_required_addTerm {other : String} : other ∈ (r.addTerm word).query.required ↔
    other ∈ r.query.required ∨ word ≠ [] ∧ r.afterOr = false ∧ other = String.ofList word := by
  unfold addTerm
  by_cases hn : word = []
  · simp [hn]
  · rw [if_neg (by simpa using hn)]
    dsimp only
    split
    next ha => simp [ha]
    next ha =>
      simp only [Std.ExtTreeSet.mem_insert, Std.LawfulEqCmp.compare_eq_iff_eq]
      grind

theorem addTerm_rest (r : QueryReader) (word : List Char) :
    (r.addTerm word).query.hasOr = r.query.hasOr ∧
      (r.addTerm word).query.excluded = r.query.excluded ∧
      (r.addTerm word).query.phrases = r.query.phrases ∧
      (r.addTerm word).afterOr = (r.afterOr && word.isEmpty) ∧
      (r.addTerm word).phrase = r.phrase := by
  unfold addTerm
  by_cases hn : word = []
  · simp [hn]
  · rw [if_neg (by simpa using hn)]
    dsimp only
    split
    next ha => simp [hn]
    next ha => simp [ha]

end Term

section Step

theorem Alike.addTerm (h : Alike s r t) (word : List Char) :
    Alike s (r.addTerm word) (t.addTerm word) := by
  obtain ⟨ho, he, hp, ha, hw⟩ := addTerm_rest r word
  obtain ⟨ho', he', hp', ha', hw'⟩ := addTerm_rest t word
  constructor
  · constructor
    · rw [ho, ho', h.query.hasOr]
    · intro other hm
      rw [mem_terms_addTerm] at hm ⊢
      exact hm.imp_left (h.query.subset other)
    · intro other hs
      rw [mem_terms_addTerm, mem_terms_addTerm, h.query.terms other hs]
    · intro hn other hs
      rw [ho] at hn
      rw [mem_required_addTerm, mem_required_addTerm, h.query.required hn other hs, h.afterOr hn]
    · rw [he, he']
      exact h.query.excluded
    · have hq := h.query.phrases
      simp only [Query.removeStopWords, hp, hp'] at hq ⊢
      exact hq
  · intro hn
    rw [ho] at hn
    rw [ha, ha', h.afterOr hn]
  · rw [hw, hw', h.phrase]

theorem Alike.exclude (h : Alike s r t) (word : List Char) :
    Alike s (r.exclude word) (t.exclude word) := by
  unfold QueryReader.exclude
  split
  · exact h
  · refine ⟨{ h.query with excluded := fun other hs => ?_ }, h.afterOr, h.phrase⟩
    simp only [Std.ExtTreeSet.mem_insert, h.query.excluded other hs]

theorem Alike.openPhrase (h : Alike s r t) (word : List Char) :
    Alike s (r.openPhrase word) (t.openPhrase word) := by
  unfold QueryReader.openPhrase
  split
  next single _ =>
    obtain ⟨ho, hh⟩ := addPhrase_optional r.query (pushWord [] single)
    exact ⟨h.query.addPhrase rfl, fun hn => h.afterOr (hh ▸ hn), h.phrase⟩
  next => exact ⟨h.query, h.afterOr, rfl⟩

theorem Alike.outside (h : Alike s r t) (word : List Char) :
    Alike s (r.outside word) (t.outside word) := by
  unfold QueryReader.outside
  split
  · exact ⟨{ h.query with hasOr := rfl, required := nofun }, nofun, h.phrase⟩
  · split
    · exact h.openPhrase _
    · split
      · exact h.exclude _
      · exact h.addTerm _

theorem Alike.inside (h : Alike s r t) {words others : List String}
    (hw : s.filter words = s.filter others) (word : List Char) :
    Alike s (r.inside words word) (t.inside others word) := by
  have hp : ∀ last, s.filter (pushWord words last) = s.filter (pushWord others last) := fun last => by
    rw [filter_pushWord, hw, ← filter_pushWord]
  unfold QueryReader.inside
  split
  next last _ =>
    obtain ⟨ho, hh⟩ := addPhrase_optional r.query (pushWord words last)
    exact ⟨h.query.addPhrase (hp last), fun hn => h.afterOr (hh ▸ hn), rfl⟩
  next => exact ⟨h.query, h.afterOr, congrArg some (hp word)⟩

theorem Alike.phrase_cases (h : Alike s r t) : (r.phrase = none ∧ t.phrase = none) ∨
    ∃ words others, r.phrase = some words ∧ t.phrase = some others ∧
      s.filter words = s.filter others := by
  have hp := h.phrase
  cases hr : r.phrase with
  | none =>
    rw [hr, Option.map_none, eq_comm, Option.map_eq_none_iff] at hp
    exact .inl ⟨rfl, hp⟩
  | some words =>
    rw [hr, Option.map_some, eq_comm, Option.map_eq_some_iff] at hp
    obtain ⟨others, ht, hw⟩ := hp
    exact .inr ⟨words, others, rfl, ht, hw.symm⟩

theorem Alike.step (h : Alike s r t) (word : List Char) : Alike s (r.step word) (t.step word) := by
  unfold QueryReader.step
  rcases h.phrase_cases with ⟨hr, ht⟩ | ⟨words, others, hr, ht, hw⟩
  · rw [hr, ht]
    exact h.outside word
  · rw [hr, ht]
    exact h.inside hw word

theorem Alike.foldl (h : Alike s r t) (words : List String) :
    Alike s (words.foldl (fun r word => r.step word.toList) r)
      (words.foldl (fun t word => t.step word.toList) t) := by
  induction words generalizing r t with
  | nil => exact h
  | cons word words ih => exact ih (h.step word.toList)

theorem Alike.finish (h : Alike s r t) : r.finish.SameBut s t.finish := by
  refine h.query.addPhrase ?_
  rcases h.phrase_cases with ⟨hr, ht⟩ | ⟨words, others, hr, ht, hw⟩
  · rw [hr, ht]
  · rw [hr, ht]
    exact hw

end Step

/-- A stop word without signs lengthens the open phrase, or is a term. -/
theorem Alike.of_stopWord (hr : r.Sound) (hs : s.contains (String.ofList word) = true)
    (hq : '"' ∉ word) (hm : word.head? ≠ some '-') (ho : word ≠ ['o', 'r']) :
    Alike s r (r.step word) := by
  unfold QueryReader.step
  split
  next words hp =>
    have hb : stripBack? '"' word = none :=
      stripBack?_eq_none.2 fun hl => hq (List.mem_of_getLast? hl)
    have hf : s.filter (pushWord [] word) = [] := by
      by_cases hn : word = [] <;> simp [pushWord, StopWords.filter, hn, hs]
    rw [QueryReader.inside, hb]
    refine ⟨Query.sameBut_refl s r.query, fun _ => rfl, ?_⟩
    rw [hp, Option.map_some, Option.map_some, filter_pushWord, hf, List.append_nil]
  next hp =>
    have hfront : word.head? ≠ some '"' := fun hh => hq (List.mem_of_head? hh)
    have hback : word.getLast? ≠ some '"' := fun hh => hq (List.mem_of_getLast? hh)
    have ht : r.outside word = r.addTerm word := by
      rw [outside_eq_addTerm ho hfront hm, trimBoth_isQuote_eq_self hfront hback]
    obtain ⟨hh, he, hp, ha, hw⟩ := addTerm_rest r word
    have hne : ∀ other, s.contains other = false → other ≠ String.ofList word := by
      rintro _ hn rfl
      rw [hs] at hn
      cases hn
    rw [ht]
    constructor
    · constructor
      · exact hh.symm
      · exact fun other hm => mem_terms_addTerm.2 (.inl hm)
      · intro other hn
        simp [mem_terms_addTerm, hne other hn]
      · intro _ other hn
        simp [mem_required_addTerm, hne other hn]
      · intro other _
        rw [he]
      · simp only [Query.removeStopWords, hp]
    · intro hn
      rw [ha, (hr hn).1, Bool.false_and]
    · rw [hw]

end QueryReader

theorem Query.parse_stopWord {text longer word : String} {before after : List String}
    (ht : blankWords text = before ++ after) (hl : blankWords longer = before ++ word :: after)
    (hs : s.contains (lowercase word) = true) (hq : '"' ∉ (lowercase word).toList)
    (hm : (lowercase word).toList.head? ≠ some '-') (ho : lowercase word ≠ "or") :
    (Query.parse text).SameBut s (Query.parse longer) := by
  have hsound : QueryReader.Sound {} := fun _ => ⟨rfl, rfl⟩
  have hsound := hsound.foldl (before.map lowercase)
  rw [← String.ofList_toList (s := lowercase word)] at hs
  have hw := QueryReader.Alike.of_stopWord hsound hs hq hm fun he => ho (eq_or_iff.2 he)
  have hf := (hw.foldl (after.map lowercase)).finish
  unfold Query.parse queryWords
  rw [ht, hl]
  simpa using hf

end Concordance

import Concordance.Engine.Search
import Concordance.Proofs.Engine.Growth
import Concordance.Proofs.Query.Reading
import Concordance.Ranking.Basic

/-!
Search against a scan of all documents.  A scan reads the stored token sequences and no postings.
Search looks only at documents with a posting for a token searched for and still finds the same hits
in the same order.
-/

namespace Concordance

theorem StopWords.mem_removeFrom {s : StopWords} {words : WordSet} {word : String} :
    word ∈ s.removeFrom words ↔ word ∈ words ∧ s.contains word = false := by
  simp [removeFrom]

theorem Query.searchTokens_of_mem_terms {q : Query} {term : String} (ht : term ∈ q.terms)
    (s : StopWords) : q.searchTokens s = s.removeFrom q.terms := by
  have hn : q.terms.isEmpty = false :=
    Std.ExtTreeSet.isEmpty_eq_false_iff.2 (Std.ExtTreeSet.ne_empty_of_mem ht)
  rw [searchTokens, hn]
  rfl

theorem containsPhrase_iff {tokens phrase : List String} :
    containsPhrase tokens phrase = true ↔ phrase ≠ [] ∧ phrase <:+: tokens := by
  unfold containsPhrase
  cases phrase with
  | nil => simp
  | cons word rest =>
    have hw : ∀ window, window ∈ windows (word :: rest).length tokens ↔
        window.length = (word :: rest).length ∧ window <:+: tokens :=
      fun window => mem_windows (by simp)
    simp only [List.isEmpty_cons, Bool.not_false, Bool.true_and, List.any_eq_true, hw]
    constructor
    · rintro ⟨window, ⟨-, hi⟩, he⟩
      rw [← eq_of_beq he]
      exact ⟨by simpa using fun hn => by simp [hn] at he, hi⟩
    · exact fun h => ⟨word :: rest, ⟨rfl, h.2⟩, by simp⟩

section Ordered

variable {l r : List String}

theorem eq_of_ordered (hl : l.Pairwise fun a b => compare a b = .lt)
    (hr : r.Pairwise fun a b => compare a b = .lt) (h : ∀ word, word ∈ l ↔ word ∈ r) : l = r := by
  have hd : ∀ {l : List String}, l.Pairwise (fun a b => compare a b = .lt) → l.Nodup :=
    fun ho => ho.imp fun hlt => by rintro rfl; simp at hlt
  refine List.Perm.eq_of_pairwise (fun a b _ _ hab hba => ?_) hl hr
    ((List.perm_ext_iff_of_nodup (hd hl) (hd hr)).2 h)
  have hs : compare a b = (compare b a).swap := Std.OrientedCmp.eq_swap
  rw [hab, hba] at hs
  cases hs

theorem pairwise_lt_mergeSort (h : l.Nodup) :
    (l.mergeSort fun a b => (compare a b).isLE).Pairwise fun a b => compare a b = .lt := by
  have hs : (l.mergeSort fun a b => (compare a b).isLE).Pairwise fun a b =>
      (compare a b).isLE = true := by
    refine List.pairwise_mergeSort (fun _ _ _ => Std.TransCmp.isLE_trans) (fun a b => ?_) l
    have hswap : compare b a = (compare a b).swap := Std.OrientedCmp.eq_swap
    rw [hswap]
    cases compare a b <;> rfl
  have hn := ((List.mergeSort_perm l fun a b => (compare a b).isLE).nodup_iff).2 h
  refine (hs.and hn).imp fun {a b} hab => ?_
  have hne : compare a b ≠ .eq := fun he => hab.2 (Std.LawfulEqOrd.eq_of_compare he)
  cases hc : compare a b <;> simp_all

end Ordered

namespace Query

/-- A token sequence that a query without its stop words asks for. -/
structure Matches (q : Query) (s : StopWords) (tokens : List String) : Prop where
  excluded : ∀ word ∈ q.excluded, s.contains word = false → word ∉ tokens
  wanted : if q.hasOr then
      ∃ word, (word ∈ q.required ∨ word ∈ q.optional) ∧ s.contains word = false ∧ word ∈ tokens
    else ∀ word ∈ q.required, s.contains word = false → word ∈ tokens
  phrases : ∀ phrase ∈ q.phrases, s.filter phrase <:+: tokens

section Matches

variable {q : Query} {s : StopWords} {tokens : List String}

theorem matches_iff : q.Matches s tokens ↔
    (∀ word ∈ q.excluded.toList, s.contains word = false → word ∉ tokens) ∧
    (if q.hasOr then
        ∃ word ∈ q.required.toList ++ q.optional.toList, s.contains word = false ∧ word ∈ tokens
      else ∀ word ∈ q.required.toList, s.contains word = false → word ∈ tokens) ∧
    ∀ phrase ∈ q.phrases, s.filter phrase <:+: tokens := by
  simp only [List.mem_append, Std.ExtTreeSet.mem_toList]
  exact ⟨fun h => ⟨h.excluded, h.wanted, h.phrases⟩, fun h => ⟨h.1, h.2.1, h.2.2⟩⟩

instance : Decidable (q.Matches s tokens) := decidable_of_iff _ matches_iff.symm

theorem mem_terms_removeStopWords {word : String} : word ∈ (q.removeStopWords s).terms ↔
    (word ∈ q.required ∨ word ∈ q.optional) ∧ s.contains word = false := by
  simp only [mem_terms, removeStopWords, StopWords.mem_removeFrom]
  tauto

theorem admits_removeStopWords_iff {index : Index} {id : String}
    (h : ∀ token, index.contains id token = true ↔ token ∈ tokens) :
    (q.removeStopWords s).admits index id = true ↔
      (∀ word ∈ q.excluded, s.contains word = false → word ∉ tokens) ∧
      if q.hasOr then
        ∃ word, (word ∈ q.required ∨ word ∈ q.optional) ∧ s.contains word = false ∧ word ∈ tokens
      else ∀ word ∈ q.required, s.contains word = false → word ∈ tokens := by
  have he : ((q.removeStopWords s).excluded.toList.any (index.contains id)) = false ↔
      ∀ word ∈ q.excluded, s.contains word = false → word ∉ tokens := by
    simp only [removeStopWords, List.any_eq_false, Std.ExtTreeSet.mem_toList,
      StopWords.mem_removeFrom, h]
    exact ⟨fun ha w hw hs => ha w ⟨hw, hs⟩, fun ha w hw => ha w hw.1 hw.2⟩
  have hh : (q.removeStopWords s).hasOr = q.hasOr := rfl
  rw [admits, Bool.and_eq_true, Bool.not_eq_true', he, hh]
  refine and_congr_right fun _ => ?_
  split
  · simp only [List.any_eq_true, Std.ExtTreeSet.mem_toList, mem_terms_removeStopWords, h, and_assoc]
  · simp only [removeStopWords, List.all_eq_true, Std.ExtTreeSet.mem_toList,
      StopWords.mem_removeFrom, h, and_imp]

theorem phrasesIn_removeStopWords_iff : (q.removeStopWords s).phrasesIn tokens = true ↔
    ∀ phrase ∈ q.phrases, s.filter phrase <:+: tokens := by
  simp only [phrasesIn, removeStopWords, List.all_eq_true, List.mem_filter, List.mem_map,
    containsPhrase_iff]
  constructor
  · intro ha phrase hm
    by_cases hn : s.filter phrase = []
    · rw [hn]
      exact List.nil_infix
    · exact (ha _ ⟨⟨phrase, hm, rfl⟩, by simpa using hn⟩).2
  · rintro ha _ ⟨⟨phrase, hm, rfl⟩, hn⟩
    exact ⟨by simpa using hn, ha phrase hm⟩

theorem admits_and_phrasesIn_iff {index : Index} {id : String}
    (h : ∀ token, index.contains id token = true ↔ token ∈ tokens) :
    ((q.removeStopWords s).admits index id = true ∧ (q.removeStopWords s).phrasesIn tokens = true) ↔
      q.Matches s tokens := by
  rw [admits_removeStopWords_iff h, phrasesIn_removeStopWords_iff]
  exact ⟨fun ⟨⟨h1, h2⟩, h3⟩ => ⟨h1, h2, h3⟩, fun h => ⟨⟨h.excluded, h.wanted⟩, h.phrases⟩⟩

end Matches

/-- The words that a query without its stop words looks up, each once and in order: its terms, or the
words of its phrases where it has no term. -/
def soughtWords (q : Query) (s : StopWords) : List String :=
  let terms := q.required.toList ++ q.optional.toList
  let words := if terms = [] then q.phrases.flatten else terms
  (words.filter fun word => !s.contains word).dedup.mergeSort fun a b => (compare a b).isLE

section Sought

variable {q : Query} {s : StopWords} {tokens : List String} {word : String}

theorem mem_soughtWords : word ∈ q.soughtWords s ↔ s.contains word = false ∧
    (word ∈ q.required ∨ word ∈ q.optional ∨
      (∀ term, term ∉ q.required ∧ term ∉ q.optional) ∧ ∃ phrase ∈ q.phrases, word ∈ phrase) := by
  have hn : q.required.toList ++ q.optional.toList = [] ↔
      ∀ term, term ∉ q.required ∧ term ∉ q.optional := by
    simp [List.eq_nil_iff_forall_not_mem, forall_and]
  rw [soughtWords, List.mem_mergeSort, List.mem_dedup, List.mem_filter, and_comm]
  refine and_congr (by simp) ?_
  split
  next ht =>
    have hw := hn.1 ht
    simp [hw]
  next ht =>
    rw [hn] at ht
    simp [ht]

theorem toList_searchTokens : (q.searchTokens s).toList = q.soughtWords s := by
  refine eq_of_ordered (q.searchTokens s).ordered_toList
    (pairwise_lt_mergeSort (List.nodup_dedup _)) fun word => ?_
  have hn : q.terms.isEmpty = true ↔ ∀ term, term ∉ q.required ∧ term ∉ q.optional := by
    rw [Std.ExtTreeSet.isEmpty_iff, Std.ExtTreeSet.eq_empty_iff_forall_not_mem]
    simp only [mem_terms, not_or]
  rw [mem_soughtWords, Std.ExtTreeSet.mem_toList, searchTokens, StopWords.mem_removeFrom, and_comm]
  refine and_congr_right fun _ => ?_
  split
  next ht =>
    have hw := hn.1 ht
    simp [mem_phraseWords, hw]
  next ht =>
    rw [hn] at ht
    simp [mem_terms, ht]

theorem mem_soughtWords_of_mem_terms {term : String} (ht : term ∈ q.terms) :
    word ∈ q.soughtWords s ↔ word ∈ q.terms ∧ s.contains word = false := by
  have hn : ¬ ∀ term, term ∉ q.required ∧ term ∉ q.optional := fun h =>
    (mem_terms.1 ht).elim (h term).1 (h term).2
  rw [mem_soughtWords, mem_terms, and_comm]
  simp [hn]

/-- A document that a query asks for contains a word that is looked up. -/
theorem Matches.exists_soughtWord (h : q.Matches s tokens)
    (ho : q.hasOr = false → q.optional = ∅) (hw : word ∈ q.soughtWords s) :
    ∃ token ∈ q.soughtWords s, token ∈ tokens := by
  obtain ⟨hs, hc⟩ := mem_soughtWords.1 hw
  by_cases ht : word ∈ q.terms
  · have hwanted := h.wanted
    split at hwanted
    next =>
      obtain ⟨token, hm, hn, hi⟩ := hwanted
      have hm := mem_terms.2 hm
      exact ⟨token, (mem_soughtWords_of_mem_terms hm).2 ⟨hm, hn⟩, hi⟩
    next hf =>
      have hr : word ∈ q.required := by simpa [mem_terms, ho (by simpa using hf)] using ht
      exact ⟨word, hw, hwanted word hr hs⟩
  · rw [mem_terms, not_or] at ht
    obtain ⟨-, phrase, hm, hp⟩ := (hc.resolve_left ht.1).resolve_left ht.2
    exact ⟨word, hw, (h.phrases phrase hm).subset (StopWords.mem_filter.2 ⟨hp, hs⟩)⟩

end Sought

end Query

theorem mem_candidates {index : Index} {tokens : List String} {id : String} :
    id ∈ candidates index tokens ↔ ∃ token ∈ tokens, index.contains id token = true := by
  simp [candidates, Index.contains, ← Array.any_toList]

namespace Engine

variable {β σ α : Type} [Scalar α]

/-- The hits of a scan: of all documents those that match and do not score zero, in order, at most
`limit` of them. -/
def scan (e : Engine β) (score : Scorer α) (text : String) (limit : Nat) : List (Hit α) :=
  let q := Query.parse text
  let s := e.config.stopWords
  let tokens := q.soughtWords s
  if tokens = [] then []
  else
    let found := (e.index.documents.keys.filter fun id => q.Matches s (e.tokens id)).map
      fun id => (⟨id, score tokens e.index id⟩ : Hit α)
    ((found.filter fun hit => !Scalar.isZero hit.score.total).mergeSort Hit.before).take limit

section Holds

variable {e : Engine β} {docs : List Document}

theorem Holds.candidates_eq (h : e.Holds docs) {q : Query}
    (ho : q.hasOr = false → q.optional = ∅) {tokens : List String}
    (ht : tokens = q.soughtWords e.config.stopWords) (hn : tokens ≠ []) :
    ((candidates e.index tokens).toList.filter fun id =>
        (q.removeStopWords e.config.stopWords).admits e.index id &&
          (q.removeStopWords e.config.stopWords).phrasesIn (e.tokens id)) =
      e.index.documents.keys.filter fun id => q.Matches e.config.stopWords (e.tokens id) := by
  have hmem : ∀ id : String,
      (id ∈ candidates e.index tokens ∧ q.Matches e.config.stopWords (e.tokens id)) ↔
        id ∈ e.index.documents.keys ∧ q.Matches e.config.stopWords (e.tokens id) := by
    intro id
    refine and_congr_left fun hm => ?_
    rw [e.index.mem_keys_documents, mem_candidates]
    constructor
    · rintro ⟨token, -, hd⟩
      exact h.hasDocument_of_mem ((h.contains id token).1 hd)
    · intro _
      obtain ⟨word, hw⟩ := List.exists_mem_of_ne_nil tokens hn
      obtain ⟨token, hs, hin⟩ := hm.exists_soughtWord ho (ht ▸ hw)
      exact ⟨token, ht ▸ hs, (h.contains id token).2 hin⟩
  have hq := fun id => Query.admits_and_phrasesIn_iff (q := q) (s := e.config.stopWords)
    (h.contains id)
  refine eq_of_ordered ((candidates e.index tokens).ordered_toList.filter _)
    (e.index.documents.ordered_keys.filter _) fun id => ?_
  simpa [hq] using hmem id

theorem Holds.phrasesMatch?_eq (h : e.Holds docs) (q : Query) :
    e.phrasesMatch? q = .ok fun id => q.phrasesIn (e.tokens id) := by
  obtain ⟨c, he, -, -, hk⟩ := h.view
  unfold phrasesMatch?
  split
  next hn => simp [Query.phrasesIn, List.isEmpty_iff.1 hn]
  next => simp only [corpus?, he, hk]

/-- Search finds what a scan finds, whatever numbers the scores are made of. -/
theorem Holds.search_eq (h : e.Holds docs) (score : Scorer α) (text : String) (limit : Nat) :
    e.search score text limit = .ok (e.scan score text limit) := by
  unfold search scan
  rw [Query.toList_searchTokens]
  by_cases hn : (Query.parse text).soughtWords e.config.stopWords = []
  · simp [hn]
  · have hc := h.candidates_eq (q := Query.parse text) Query.optional_eq_empty rfl hn
    simp only [List.isEmpty_iff, hn, Bool.or_eq_true, beq_iff_eq, false_or, hits,
      h.phrasesMatch?_eq, Engine.parse, hc, bind, Except.bind, pure, Except.pure, if_false]
    split
    next hz => simp [hz]
    next => rfl

end Holds

end Engine

/-- The better score comes first, and of two equal scores the one with the smaller identifier. -/
def Hit.Precedes {α : Type} [Scalar α] (a b : Hit α) : Prop :=
  Scalar.order b.score.total a.score.total = .lt ∨
    Scalar.order b.score.total a.score.total = .eq ∧ compare a.id b.id = .lt

def Scalar.RankedBy {α κ : Type} [Scalar α] [LinearOrder κ] (rank : α → κ) : Prop :=
  ∀ x y : α, Scalar.order x y = compare (rank x) (rank y)

theorem Double.rankedBy_rank : Scalar.RankedBy Double.rank := fun _ _ => rfl

section Ranked

variable {α κ : Type} [Scalar α] [LinearOrder κ] {rank : α → κ} (hr : Scalar.RankedBy rank)
  {a b c : Hit α}
include hr

theorem Hit.before_iff : a.before b = true ↔
    rank b.score.total < rank a.score.total ∨
      rank b.score.total = rank a.score.total ∧ (compare a.id b.id).isLE = true := by
  unfold Hit.before
  rw [hr]
  cases hc : compare (rank b.score.total) (rank a.score.total) with
  | lt =>
    have hlt := compare_lt_iff_lt.1 hc
    simp [hlt]
  | eq =>
    have heq := compare_eq_iff_eq.1 hc
    simp [heq]
  | gt =>
    have hgt := compare_gt_iff_gt.1 hc
    simp [hgt.ne', hgt.not_gt]

theorem Hit.before_trans (hab : a.before b = true) (hbc : b.before c = true) :
    a.before c = true := by
  rw [before_iff hr] at hab hbc ⊢
  rcases hab with hab | ⟨hab, hi⟩ <;> rcases hbc with hbc | ⟨hbc, hj⟩
  · exact .inl (hbc.trans hab)
  · exact .inl (hbc.trans_lt hab)
  · exact .inl (hbc.trans_eq hab)
  · exact .inr ⟨hbc.trans hab, Std.TransCmp.isLE_trans hi hj⟩

theorem Hit.before_total (a b : Hit α) : (a.before b || b.before a) = true := by
  rw [Bool.or_eq_true, before_iff hr, before_iff hr]
  rcases lt_trichotomy (rank a.score.total) (rank b.score.total) with hlt | heq | hgt
  · exact .inr (.inl hlt)
  · have ho : compare a.id b.id = (compare b.id a.id).swap := Std.OrientedCmp.eq_swap
    cases hc : compare b.id a.id <;> simp_all
  · exact .inl (.inl hgt)

theorem Hit.Precedes.of_before (h : a.before b = true) (hn : a.id ≠ b.id) : a.Precedes b := by
  have hc : compare a.id b.id ≠ .eq := fun he => hn (Std.LawfulEqOrd.eq_of_compare he)
  rcases (before_iff hr).1 h with hlt | ⟨heq, hle⟩
  · exact .inl ((hr _ _).trans (compare_lt_iff_lt.2 hlt))
  · refine .inr ⟨(hr _ _).trans (compare_eq_iff_eq.2 heq), ?_⟩
    cases ho : compare a.id b.id <;> simp_all

/-- Sorting puts hits with different identifiers in order. -/
theorem Hit.pairwise_mergeSort {hits : List (Hit α)} (h : hits.Pairwise (·.id ≠ ·.id)) :
    (hits.mergeSort Hit.before).Pairwise Hit.Precedes := by
  have hn := ((List.mergeSort_perm hits Hit.before).pairwise_iff (fun hne => hne.symm)).2 h
  have hs := @List.pairwise_mergeSort _ Hit.before (fun _ _ _ => Hit.before_trans hr)
    (Hit.before_total hr) hits
  exact hs.imp₂ (fun _ _ => Hit.Precedes.of_before hr) hn

end Ranked

namespace Engine

variable {β σ : Type}

theorem scan_pairwise {α κ : Type} [Scalar α] [LinearOrder κ] {rank : α → κ}
    (hr : Scalar.RankedBy rank) (e : Engine β) (score : Scorer α) (text : String) (limit : Nat) :
    (e.scan score text limit).Pairwise Hit.Precedes := by
  have hk : ∀ (p : String → Bool) (tokens : List String) (q : Hit α → Bool),
      (((e.index.documents.keys.filter p).map fun id =>
        (⟨id, score tokens e.index id⟩ : Hit α)).filter q).Pairwise (·.id ≠ ·.id) :=
    fun p _ q => .filter q (List.pairwise_map.2 (Std.ExtTreeMap.nodup_keys.filter p))
  unfold scan
  dsimp only
  split
  · exact .nil
  · exact (Hit.pairwise_mergeSort hr (hk _ _ _)).sublist (List.take_sublist ..)

theorem scan_ordered (e : Engine β) (score : Scorer Double) (text : String) (limit : Nat) :
    (e.scan score text limit).Pairwise Hit.Precedes :=
  e.scan_pairwise Double.rankedBy_rank score text limit

/-- Search is a scan of all documents, best hits first: for every engine that has grown from
records, every ranking, every query text and every limit. -/
theorem search_eq_scan (react : React (StateM σ) β) {e : Engine β} (h : e.Grown react)
    (score : Scorer Double) (text : String) (limit : Nat) :
    e.search score text limit = .ok (e.scan score text limit) ∧
      (e.scan score text limit).Pairwise Hit.Precedes := by
  obtain ⟨docs, hd⟩ := h.holds
  exact ⟨hd.search_eq score text limit, e.scan_ordered score text limit⟩

theorem search_eq_scan_foxes :
    let fox : Record :=
      .ofList [("id", Json.str "1"), ("text", Json.str "The quick red fox")] compare
    let hen : Record := .ofList [("id", Json.str "2"), ("text", Json.str "a red hen")] compare
    let score : Scorer Double := Ranking.termFrequency.scorer
    ∃ e : Engine Unit, Engine.ofRecords [fox, hen] {} = .ok e ∧
      e.Grown (σ := Unit) (fun _ _ => pure ((), .ok ())) ∧
      e.search score "red \"quick red\" -hen" 10 =
        .ok (e.scan score "red \"quick red\" -hen" 10) := by
  intro fox hen score
  have hok : (Engine.ofRecords (β := Unit) [fox, hen] {}).toOption.isSome = true := by
    decide +kernel
  cases he : Engine.ofRecords (β := Unit) [fox, hen] {} with
  | error fault => simp [he, Except.toOption] at hok
  | ok e =>
    have hg : e.Grown (σ := Unit) (fun _ _ => pure ((), .ok ())) := .ofRecords he
    exact ⟨e, rfl, hg, (search_eq_scan _ hg score _ 10).1⟩

end Engine

end Concordance

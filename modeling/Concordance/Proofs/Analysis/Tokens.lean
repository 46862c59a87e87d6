import Concordance.Config.Analyzer
import Concordance.Proofs.Query.Wording
import Concordance.Proofs.Result
import Mathlib.Data.List.Basic

namespace Concordance

structure IsToken (word : String) : Prop where
  nonempty : word.toList ≠ []
  chars : ∀ c ∈ word.toList, isWord c = true ∧ IsLower c

theorem mem_of_mem_runs {p : Char → Bool} {cs run : List Char} (h : run ∈ runs p cs) :
    run ⊆ cs := by
  unfold runs at h
  induction cs generalizing run with
  | nil => simp at h
  | cons c cs ih =>
    rw [List.foldr_cons] at h
    revert h ih
    generalize cs.foldr (RunScan.push p) ⟨false, []⟩ = scan
    intro ih h
    unfold RunScan.push at h
    split at h
    · split at h
      · rcases List.mem_cons.1 h with rfl | h
        · exact List.cons_subset_cons c (ih (List.mem_cons_self ..))
        · exact List.Subset.trans (ih (List.mem_cons_of_mem _ h)) (List.subset_cons_self c cs)
      · rcases List.mem_cons.1 h with rfl | h
        · simp
        · exact List.Subset.trans (ih h) (List.subset_cons_self c cs)
    · exact List.Subset.trans (ih h) (List.subset_cons_self c cs)

namespace IsToken

variable {word next : String}

theorem not_mem (h : IsToken word) {c : Char} (hc : isWord c = false) : c ∉ word.toList :=
  fun hm => Bool.eq_false_iff.1 hc (h.chars c hm).1

theorem append (h : IsToken word) (hn : IsToken next) : IsToken (word ++ "_" ++ next) := by
  refine ⟨by simp, fun c hc => ?_⟩
  have hu : isWord '_' = true ∧ IsLower '_' := by decide +kernel
  have hc : c ∈ word.toList ∨ c = '_' ∨ c ∈ next.toList := by simpa using hc
  rcases hc with hc | rfl | hc
  · exact h.chars c hc
  · exact hu
  · exact hn.chars c hc

theorem intercalate {words : List String} (hn : words ≠ []) (h : ∀ word ∈ words, IsToken word) :
    IsToken ("_".intercalate words) := by
  induction words with
  | nil => exact absurd rfl hn
  | cons word words ih =>
    cases words with
    | nil => simpa using h
    | cons next rest =>
      rw [String.intercalate_cons_cons]
      exact (h word (by simp)).append (ih (by simp) fun other ho => h other (by simp [ho]))

end IsToken

namespace Tokenizer

theorem isToken_of_mem_unigrams {text word : String} (h : word ∈ unigrams text) :
    IsToken word := by
  obtain ⟨run, hr, rfl⟩ := List.mem_map.1 h
  obtain ⟨hn, hw⟩ := mem_class_of_mem_runs hr
  refine ⟨by simpa using hn, fun c hc => ?_⟩
  rw [String.toList_ofList] at hc
  have hm : c ∈ lowerFrom false text.toList := by
    rw [← toList_lowercase]
    exact mem_of_mem_runs hr hc
  exact ⟨hw c hc, (mem_lowerFrom hm).1⟩

theorem isToken_of_mem_tokenize {t : Tokenizer} {text word : String} (h : word ∈ t.tokenize text) :
    IsToken word := by
  unfold tokenize at h
  split at h
  · exact isToken_of_mem_unigrams h
  · obtain ⟨window, hw, rfl⟩ := List.mem_map.1 h
    obtain ⟨hl, hi⟩ := (mem_windows t.width_pos).1 hw
    have hn : window ≠ [] := by
      rintro rfl
      exact Nat.ne_of_lt t.width_pos hl
    exact .intercalate hn fun word hm => isToken_of_mem_unigrams (hi.subset hm)

theorem tokenize_single {t : Tokenizer} (h : t.ngram = none ∨ t.ngram = some 1) (text : String) :
    t.tokenize text = unigrams text := by
  have hw : t.width ≤ 1 := by rcases h with h | h <;> simp [width, h]
  exact if_pos hw

theorem unigrams_eq_singleton {word : String} (hn : (lowercase word).toList ≠ [])
    (h : ∀ c ∈ (lowercase word).toList, isWord c = true) : unigrams word = [lowercase word] := by
  rw [unigrams, runs_eq_singleton hn h]
  simp

theorem unigrams_empty : unigrams "" = [] := by decide +kernel

theorem unigrams_append (s t : String) : unigrams (s ++ " " ++ t) = unigrams s ++ unigrams t := by
  have ht : (lowercase (s ++ " " ++ t)).toList =
      (lowercase s).toList ++ ' ' :: (lowercase t).toList := by
    simp only [toList_lowercase, ← lowerFrom_append_space]
    simp
  rw [unigrams, ht, runs_append isWord_space, List.map_append]
  rfl

theorem unigrams_intercalate (texts : List String) :
    unigrams (" ".intercalate texts) = texts.flatMap unigrams := by
  induction texts with
  | nil => exact unigrams_empty
  | cons text texts ih =>
    rw [List.flatMap_cons, ← ih]
    cases texts with
    | nil => simp [unigrams_empty]
    | cons next rest => rw [String.intercalate_cons_cons, unigrams_append]

end Tokenizer

def Readable (record : Record) (field : String) : Prop :=
  ∀ value, record[field]? = some value → value = .null ∨ ∃ text, value = .str text

instance (record : Record) (field : String) : Decidable (Readable record field) :=
  decidable_of_iff (record[field]?.all fun value => value matches .null | .str _) <| by
    unfold Readable
    cases record[field]? with
    | none => simp
    | some value => cases value <;> simp

/-- Of these fields the first that holds neither text nor nothing. -/
def FirstUnreadable (record : Record) (fields : List String) (field : String) : Prop :=
  ∃ before after, fields = before ++ field :: after ∧ (∀ other ∈ before, Readable record other) ∧
    ¬ Readable record field

def fieldText (record : Record) (field : String) : String :=
  (record[field]?.bind Json.str?).getD ""

theorem Tokenizer.tokenize_empty (t : Tokenizer) : t.tokenize "" = [] := by
  simp [tokenize, unigrams_empty, windows]

def copies {α : Type} (k : Nat) (items : List α) : List α := (List.replicate k items).flatten

namespace Analyzer

variable (a : Analyzer) (record : Record)

def words (field : String) : List String :=
  a.config.stopWords.filter (a.tokenizer.tokenize (fieldText record field))

def share (field : String) : List String :=
  copies (a.config.repeatCount field) (a.words record field)

theorem fieldTokens_eq_ok (field : String) (tokens : List String) :
    a.fieldTokens record field = .ok tokens ↔ Readable record field ∧
      tokens = copies (a.config.repeatCount field)
        (a.tokenizer.tokenize (fieldText record field)) := by
  unfold fieldTokens Readable fieldText copies
  cases hv : record[field]? with
  | none => simp [a.tokenizer.tokenize_empty, eq_comm]
  | some value => cases value <;> simp [Json.str?, a.tokenizer.tokenize_empty, eq_comm]

theorem documentTokens_eq_ok {fields : Option (List String)} {tokens : List String} :
    a.documentTokens record fields = .ok tokens ↔
      (∀ field ∈ fields.getD a.config.effectiveFields, Readable record field) ∧
        tokens = (fields.getD a.config.effectiveFields).flatMap (a.share record) := by
  have hs : ∀ names : List String, a.config.stopWords.filter (names.map fun field =>
      copies (a.config.repeatCount field)
        (a.tokenizer.tokenize (fieldText record field))).flatten =
      names.flatMap (a.share record) := by
    intro names
    rw [← List.flatMap_def, StopWords.filter, List.filter_flatMap]
    simp only [copies, List.filter_flatten, List.map_replicate]
    rfl
  unfold documentTokens
  rw [Result.bind_eq_ok]
  simp only [mapM_eq_ok (a.fieldTokens_eq_ok record)]
  constructor
  · rintro ⟨parts, ⟨hr, rfl⟩, ht⟩
    cases ht
    exact ⟨hr, hs _⟩
  · rintro ⟨hr, rfl⟩
    exact ⟨_, ⟨hr, rfl⟩, by rw [hs]; rfl⟩

theorem fieldTokens_eq_error {field : String} {fault : Error} :
    a.fieldTokens record field = .error fault ↔
      ¬ Readable record field ∧ fault = .record (.notText field) := by
  unfold fieldTokens Readable
  cases hv : record[field]? with
  | none => simp
  | some value => cases value <;> simp [eq_comm]

/-- A record cannot be analyzed iff one of its fields is unreadable; the first such is named. -/
theorem documentTokens_eq_error {fields : Option (List String)} {fault : Error} :
    a.documentTokens record fields = .error fault ↔
      ∃ field, FirstUnreadable record (fields.getD a.config.effectiveFields) field ∧
        fault = .record (.notText field) := by
  have hd : a.documentTokens record fields = .error fault ↔
      (fields.getD a.config.effectiveFields).mapM (a.fieldTokens record) = .error fault := by
    unfold documentTokens
    cases (fields.getD a.config.effectiveFields).mapM (a.fieldTokens record) <;>
      simp [bind, Except.bind, pure, Except.pure]
  have hok : ∀ field, (∃ tokens, a.fieldTokens record field = .ok tokens) ↔
      Readable record field := fun field => by
    simp only [fieldTokens_eq_ok, exists_and_left, exists_eq, and_true]
  simp only [hd, mapM_eq_error, hok, fieldTokens_eq_error, FirstUnreadable]
  constructor
  · rintro ⟨before, field, after, hs, hb, hu, rfl⟩
    exact ⟨field, ⟨before, after, hs, hb, hu⟩, rfl⟩
  · rintro ⟨field, ⟨before, after, hs, hb, hu⟩, rfl⟩
    exact ⟨before, field, after, hs, hb, hu, rfl⟩

theorem mem_share {field word : String} : word ∈ a.share record field ↔
    word ∈ a.tokenizer.tokenize (fieldText record field) ∧
      a.config.stopWords.contains word = false := by
  have hc := (a.config.repeatCount_bounds field).1
  rw [← StopWords.mem_filter, share, copies, List.mem_flatten]
  constructor
  · rintro ⟨copy, hm, hw⟩
    rwa [List.eq_of_mem_replicate hm] at hw
  · exact fun hw => ⟨_, List.mem_replicate.2 ⟨by omega, rfl⟩, hw⟩

variable {a record}

section Stored

variable {fields : Option (List String)} {tokens : List String} {word : String}
  (h : a.documentTokens record fields = .ok tokens)
include h

/-- However often fields count, the same words are stored. -/
theorem mem_documentTokens : word ∈ tokens ↔
    (∃ field ∈ fields.getD a.config.effectiveFields,
        word ∈ a.tokenizer.tokenize (fieldText record field)) ∧
      a.config.stopWords.contains word = false := by
  rw [((a.documentTokens_eq_ok record).1 h).2]
  simp only [List.mem_flatMap, mem_share, ← and_assoc, exists_and_right]

theorem isToken_of_mem_documentTokens (hw : word ∈ tokens) :
    IsToken word ∧ a.config.stopWords.contains word = false := by
  obtain ⟨⟨field, -, ht⟩, hs⟩ := (mem_documentTokens h).1 hw
  exact ⟨Tokenizer.isToken_of_mem_tokenize ht, hs⟩

end Stored

end Analyzer

end Concordance

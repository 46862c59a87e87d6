import Concordance.Proofs.Analysis.Tokens
import Concordance.Proofs.Config.Weights
import Concordance.Proofs.Engine.Growth

namespace Concordance

namespace Tokenizer

theorem ofNgram_single {ngram : Option Nat} (h : ngram = none ∨ ngram = some 1) :
    ∃ t, ofNgram ngram = .ok t ∧ t.ngram = ngram := by
  rcases h with rfl | rfl <;> exact ⟨_, rfl, rfl⟩

theorem flatMap_recordTexts (record : Record) (fields : List String) :
    (recordTexts record (some fields)).flatMap unigrams =
      fields.flatMap fun field => unigrams (fieldText record field) := by
  show (fields.filterMap _).flatMap unigrams = _
  induction fields with
  | nil => rw [List.filterMap_nil, List.flatMap_nil, List.flatMap_nil]
  | cons field fields ih =>
    rw [List.flatMap_cons, ← ih, List.filterMap_cons, fieldText]
    cases record[field]?.bind Json.str? with
    | none => simp [unigrams_empty]
    | some text => exact List.flatMap_cons

end Tokenizer

theorem Analyzer.share_single (a : Analyzer) {field : String}
    (ht : a.tokenizer.ngram = none ∨ a.tokenizer.ngram = some 1)
    (hs : a.config.stopWords = .none) (hr : a.config.repeatCount field = 1) (record : Record) :
    a.share record field = Tokenizer.unigrams (fieldText record field) := by
  have hf : ∀ tokens, a.config.stopWords.filter tokens = tokens := fun tokens => by
    rw [hs]
    exact List.filter_eq_self.2 fun _ _ => by simp [StopWords.contains, StopWords.none]
  rw [share, words, hf, Tokenizer.tokenize_single ht, hr, copies, List.replicate_one,
    List.flatten_singleton]

/-- With words for tokens, no stop words and no weight above one, the tokens of readable fields of a
record are those of their texts joined by spaces. -/
theorem Analyzer.documentTokens_eq_joined {config : Config} {t : Tokenizer} {record : Record}
    {fields : List String} (hn : config.ngram = none ∨ config.ngram = some 1)
    (ht : t.ngram = none ∨ t.ngram = some 1) (hs : config.stopWords = .none)
    (hw : ∀ (field : String) (weight : Float), config.weights[field]? = some weight → ¬ 1 < weight)
    (hr : ∀ field ∈ fields, Readable record field) :
    ∃ a, ofConfig config = .ok a ∧
      a.documentTokens record (some fields) = .ok (t.tokenizeRecord record (some fields)) := by
  obtain ⟨own, hown, hngram⟩ := Tokenizer.ofNgram_single hn
  rw [← hngram] at hn
  let a : Analyzer := ⟨config, own⟩
  have hshare : a.share record = fun field => Tokenizer.unigrams (fieldText record field) :=
    funext fun field => a.share_single hn hs (Config.repeatCount_of_not_lt hw field) record
  refine ⟨a, ofConfig_eq_ok.2 ⟨Config.check_of_not_lt hw, hown, rfl⟩, ?_⟩
  rw [documentTokens_eq_ok, hshare, Option.getD_some]
  refine ⟨hr, ?_⟩
  rw [Tokenizer.tokenizeRecord, Tokenizer.tokenize_single ht, Tokenizer.unigrams_intercalate,
    Tokenizer.flatMap_recordTexts]

theorem Analyzer.documentTokens_eq_joined_sigma :
    let config : Config :=
      { weights := .ofList [("title", 1), ("text", -2)] compare, stopWords := .none }
    let t : Tokenizer := ⟨some 1, by decide⟩
    let record : Record :=
      .ofList [("title", .str "ΟΔΟΣ"), ("text", .str "Σ, Fox"), ("note", .null)] compare
    let fields := ["title", "note", "date", "text"]
    (config.ngram = none ∨ config.ngram = some 1) ∧ (t.ngram = none ∨ t.ngram = some 1) ∧
      config.stopWords = .none ∧
      (∀ (field : String) (weight : Float), config.weights[field]? = some weight → ¬ 1 < weight) ∧
      (∀ field ∈ fields, Readable record field) ∧
      t.tokenizeRecord record (some fields) = ["οδος", "σ", "fox"] ∧
      ∃ a, ofConfig config = .ok a ∧
        a.documentTokens record (some fields) = .ok (t.tokenizeRecord record (some fields)) := by
  intro config t record fields
  have hall : ∀ entry ∈ config.weights.toList, ¬ 1 < entry.2 := by decide +kernel
  have hw : ∀ (field : String) (weight : Float), config.weights[field]? = some weight →
      ¬ 1 < weight := fun field weight h =>
    hall (field, weight) (Std.ExtTreeMap.mem_toList_iff_getElem?_eq_some.2 h)
  have hr : ∀ field ∈ fields, Readable record field := by decide +kernel
  exact ⟨.inl rfl, .inr rfl, rfl, hw, hr, by decide +kernel,
    documentTokens_eq_joined (.inl rfl) (.inr rfl) rfl hw hr⟩

end Concordance

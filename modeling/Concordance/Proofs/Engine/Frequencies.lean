import Concordance.Proofs.Engine.Stored

namespace Concordance

theorem count_copies (k : Nat) (words : List String) (word : String) :
    (copies k words).count word = k * words.count word := by
  rw [copies, List.count_flatten, List.map_replicate, List.sum_replicate_nat]

theorem StopWords.count_filter (s : StopWords) (tokens : List String) (token : String) :
    (s.filter tokens).count token = if s.contains token then 0 else tokens.count token := by
  by_cases hs : s.contains token = true
  · rw [if_pos hs, List.count_eq_zero, mem_filter]
    simp [hs]
  · rw [if_neg hs, filter, List.count_filter (by simpa using hs)]

def Config.fieldCount (config : Config) (t : Tokenizer) (record : Record) (token field : String) :
    Nat :=
  match record[field]? with
  | some (.str text) => config.repeatCount field * (t.tokenize text).count token
  | _ => 0

/-- How often a token counts for a record: not at all if it is a stop word, else for each of the
fields to index, also for one that is listed again. -/
def Config.recordCount (config : Config) (t : Tokenizer) (record : Record) (token : String) : Nat :=
  if config.stopWords.contains token then 0
  else (config.effectiveFields.map (config.fieldCount t record token)).sum

namespace Analyzer

variable (a : Analyzer) (record : Record) (token : String)

theorem count_tokenize_fieldText (field : String) :
    a.config.repeatCount field * (a.tokenizer.tokenize (fieldText record field)).count token =
      a.config.fieldCount a.tokenizer record token field := by
  unfold Config.fieldCount fieldText
  cases hv : record[field]? with
  | none => simp [a.tokenizer.tokenize_empty]
  | some value => cases value <;> simp [Json.str?, a.tokenizer.tokenize_empty]

theorem count_share (field : String) : (a.share record field).count token =
    if a.config.stopWords.contains token then 0
    else a.config.fieldCount a.tokenizer record token field := by
  rw [share, count_copies, words, StopWords.count_filter, mul_ite, mul_zero,
    count_tokenize_fieldText]

variable {a record}

theorem count_documentTokens {tokens : List String}
    (h : a.documentTokens record none = .ok tokens) :
    tokens.count token = a.config.recordCount a.tokenizer record token := by
  obtain ⟨-, rfl⟩ := (a.documentTokens_eq_ok record).1 h
  show (a.config.effectiveFields.flatMap (a.share record)).count token = _
  rw [List.count_flatMap, Config.recordCount]
  simp only [Function.comp_def, count_share]
  split <;> simp

end Analyzer

theorem support_count_subset (tokens : List String) :
    Function.support (fun token => tokens.count token) ⊆ ↑tokens.toFinset := by
  intro token ht
  simpa [List.count_eq_zero] using ht

theorem finsum_count (tokens : List String) : ∑ᶠ token, tokens.count token = tokens.length := by
  rw [finsum_eq_sum_of_support_subset _ (support_count_subset tokens),
    List.sum_toFinset_count_eq_length]

namespace Engine

variable {β : Type} {e : Engine β}

theorem Holds.docLength?_eq_length {docs : List Document} (h : e.Holds docs) {id : String}
    (hd : e.index.hasDocument id = true) : e.index.docLength? id = some (e.tokens id).length := by
  obtain ⟨d, hm, rfl⟩ := List.mem_map.1 ((h.holds_index.hasDocument id).1 hd)
  have hf := (documentOf?_eq_some h.holds_index.distinct).2 ⟨hm, rfl⟩
  rw [Index.docLength?, h.holds_index.lengths, h.tokens, hf]
  rfl

/-- In an engine built from records the frequency of a token in a document is the weighted count of
its record, as far as a word of 32 bits counts: the sum, over the fields to index, of how often the text
of a field has the token, times the repetitions of the field, and none for a stop word.  The length of
the document is the sum of these counts, and every field is repeated at least once and at most a
thousand times. -/
theorem ofRecords_frequencies {records : List Record} {config : Config}
    (h : Engine.ofRecords records config = .ok e) :
    (∀ field, 1 ≤ config.repeatCount field ∧ config.repeatCount field ≤ 1000) ∧
      ∃ t, Tokenizer.ofNgram config.ngram = .ok t ∧
        ∀ id record, e.index.metadata? id = some record →
          record ∈ records ∧ recordId? record = some id ∧
          (∀ token, e.index.termFrequency id token = config.recordCount t record token % 2 ^ 32) ∧
          (Function.support (config.recordCount t record)).Finite ∧
          e.index.docLength? id = some (∑ᶠ token, config.recordCount t record token) ∧
          ((∀ token, config.recordCount t record token < 2 ^ 32) →
            (∀ token, e.index.termFrequency id token = config.recordCount t record token) ∧
            e.index.docLength? id = some (∑ᶠ token, e.index.termFrequency id token)) := by
  obtain ⟨rfl, docs, hd, -⟩ := ofRecords_holds h
  obtain ⟨-, ht, -⟩ := Analyzer.ofConfig_eq_ok.1 hd.sound
  refine ⟨e.config.repeatCount_bounds, e.analyzer.tokenizer, ht, fun id record hr => ?_⟩
  have hdoc : e.index.hasDocument id = true := by
    rw [Index.hasDocument, Std.ExtTreeMap.contains_eq_isSome_getElem?]
    exact Option.isSome_iff_exists.2 ⟨record, hr⟩
  have hcount : (fun token => (e.tokens id).count token) =
      e.config.recordCount e.analyzer.tokenizer record :=
    funext fun token => Analyzer.count_documentTokens token (ofRecords_tokens h hr)
  have hword : ∀ token, e.index.termFrequency id token =
      e.config.recordCount e.analyzer.tokenizer record token % 2 ^ 32 := fun token => by
    rw [hd.termFrequency, toNat_tally, ← hcount]
  have hlength : e.index.docLength? id =
      some (∑ᶠ token, e.config.recordCount e.analyzer.tokenizer record token) := by
    rw [← hcount, finsum_count, hd.docLength?_eq_length hdoc]
  obtain ⟨found, hmem, hfound, hid⟩ := ofRecords_metadata h hdoc
  cases hr.symm.trans hfound
  refine ⟨hmem, hid, hword, ?_, hlength, fun fit => ?_⟩
  · rw [← hcount]
    exact (e.tokens id).toFinset.finite_toSet.subset (support_count_subset _)
  · have hexact : ∀ token, e.index.termFrequency id token =
        e.config.recordCount e.analyzer.tokenizer record token := fun token =>
      (hword token).trans (Nat.mod_eq_of_lt (fit token))
    refine ⟨hexact, ?_⟩
    simpa only [hexact] using hlength

theorem ofRecords_frequencies_red :
    let record : Record := .ofList [("id", .str "1"), ("title", .str "Red fox"),
      ("text", .str "the red hen, red"), ("note", .null)] compare
    let config : Config := {
      fields := some ["text", "title", "note", "text"]
      weights := .ofList [("title", 2)] compare }
    ∃ e : Engine Unit, Engine.ofRecords [record] config = .ok e ∧
      e.index.metadata? "1" = some record ∧ e.index.termFrequency "1" "red" = 6 ∧
      e.index.termFrequency "1" "the" = 0 ∧
      e.index.docLength? "1" = some (∑ᶠ token, e.index.termFrequency "1" token) := by
  intro record config
  obtain ⟨e, he, hd⟩ : ∃ e : Engine Unit, Engine.ofRecords [record] config = .ok e ∧
      e.index.hasDocument "1" = true :=
    Result.exists_of_any (by decide +kernel)
  obtain ⟨found, hm, hr, -⟩ := ofRecords_metadata he hd
  rw [List.mem_singleton.1 hm] at hr
  obtain ⟨-, t, ht, hcounts⟩ := ofRecords_frequencies he
  obtain ⟨-, -, -, -, -, hexact⟩ := hcounts "1" record hr
  cases ht
  have hfit : ∀ token, config.recordCount ⟨none, by decide⟩ record token < 2 ^ 32 := by
    intro token
    let a : Analyzer := ⟨config, ⟨none, by decide⟩⟩
    obtain ⟨tokens, htokens, hlength⟩ : ∃ tokens, a.documentTokens record none = .ok tokens ∧
        decide (tokens.length < 2 ^ 32) = true :=
      Result.exists_of_any (by decide +kernel)
    rw [← Analyzer.count_documentTokens token htokens]
    exact List.count_le_length.trans_lt (of_decide_eq_true hlength)
  obtain ⟨hc, hl⟩ := hexact hfit
  refine ⟨e, he, hr, ?_, ?_, hl⟩
  · rw [hc]
    decide +kernel
  · rw [hc]
    decide +kernel

end Engine

end Concordance

import Concordance.Proofs.Engine.Found
import Concordance.Proofs.Engine.Stored

/-!
Engines that differ in the weights of fields.  A field is stored as often as it counts, so the same
records are held and the same words are stored for them; as long as counts fit their words, only
phrases over a seam, between two copies of a field or between fields, can tell the engines apart.
-/

namespace Concordance

section Copies

variable {k m : Nat} (words : List String)

theorem copies_isPrefix (h : k ≤ m) : copies k words <+: copies m words := by
  obtain ⟨n, rfl⟩ := Nat.exists_eq_add_of_le h
  exact ⟨copies n words, by rw [copies, copies, copies, List.replicate_add, List.flatten_append]⟩

theorem copies_isSuffix (h : k ≤ m) : copies k words <:+ copies m words := by
  obtain ⟨n, rfl⟩ := Nat.exists_eq_add_of_le' h
  exact ⟨copies n words, by rw [copies, copies, copies, List.replicate_add, List.flatten_append]⟩

end Copies

/-- Words in a row whichever of two ways the fields count: they stand in neighbouring fields, each
taken as often as it counts both ways, and those between the first and the last count alike. -/
def StandsBothWays (fields : List String) (words : String → List String) (m n : String → Nat)
    (phrase : List String) : Prop :=
  ∃ window, window <:+: fields ∧
    (∀ field ∈ window.tail.dropLast, words field ≠ [] → m field = n field) ∧
    phrase <:+: window.flatMap fun field => copies (min (m field) (n field)) (words field)

section Window

variable {fields : List String} {words : String → List String} {m n : String → Nat}

/-- Of a window only the first and the last field may count less often. -/
theorem flatMap_copies_isInfix {k : String → Nat} {window : List String}
    (hk : ∀ field, k field ≤ m field)
    (hi : ∀ field ∈ window.tail.dropLast, words field ≠ [] → k field = m field) :
    (window.flatMap fun field => copies (k field) (words field)) <:+:
      window.flatMap fun field => copies (m field) (words field) := by
  cases window with
  | nil => exact List.infix_rfl
  | cons first rest =>
    rcases List.eq_nil_or_concat rest with rfl | ⟨inner, last, rfl⟩
    · simpa using (copies_isPrefix (words first) (hk first)).isInfix
    · have hinner : (inner.flatMap fun field => copies (k field) (words field)) =
          inner.flatMap fun field => copies (m field) (words field) := by
        refine List.flatMap_congr fun field hf => ?_
        by_cases hw : words field = []
        · simp [copies, hw]
        · rw [hi field (by simpa using hf) hw]
      obtain ⟨before, hb⟩ := copies_isSuffix (words first) (hk first)
      obtain ⟨after, ha⟩ := copies_isPrefix (words last) (hk last)
      refine ⟨before, after, ?_⟩
      simp [← hb, ← ha, hinner]

theorem StandsBothWays.isInfix {phrase : List String} (h : StandsBothWays fields words m n phrase) :
    phrase <:+: fields.flatMap fun field => copies (m field) (words field) := by
  obtain ⟨window, ⟨before, after, rfl⟩, hi, hp⟩ := h
  have hw : phrase <:+: window.flatMap fun field => copies (m field) (words field) :=
    hp.trans (flatMap_copies_isInfix (fun _ => Nat.min_le_left ..) fun field hf hn => by
      simp [hi field hf hn])
  rw [List.flatMap_append, List.flatMap_append]
  exact hw.trans (List.infix_append ..)

theorem StandsBothWays.symm {phrase : List String} (h : StandsBothWays fields words m n phrase) :
    StandsBothWays fields words n m phrase := by
  obtain ⟨window, hw, hi, hp⟩ := h
  refine ⟨window, hw, fun field hf hn => (hi field hf hn).symm, ?_⟩
  simpa only [Nat.min_comm] using hp

end Window

namespace Analyzer

/-- Analyzers that differ at most in how often fields count. -/
structure Alike (a b : Analyzer) : Prop where
  fields : a.config.effectiveFields = b.config.effectiveFields
  stopWords : a.config.stopWords = b.config.stopWords
  policy : a.config.policy = b.config.policy
  tokenizer : a.tokenizer = b.tokenizer

variable {β : Type} {a b : Analyzer}

theorem Alike.symm (h : a.Alike b) : b.Alike a :=
  ⟨h.fields.symm, h.stopWords.symm, h.policy.symm, h.tokenizer.symm⟩

theorem Alike.mem_documentTokens (h : a.Alike b) {record : Record} {tokens others : List String}
    (ha : a.documentTokens record none = .ok tokens)
    (hb : b.documentTokens record none = .ok others) (word : String) :
    word ∈ tokens ↔ word ∈ others := by
  rw [Analyzer.mem_documentTokens ha, Analyzer.mem_documentTokens hb, h.stopWords, h.tokenizer,
    Option.getD_none, Option.getD_none, h.fields]

theorem Alike.documentTokens (h : a.Alike b) {record : Record} {tokens : List String}
    (ht : a.documentTokens record none = .ok tokens) :
    ∃ others, b.documentTokens record none = .ok others := by
  obtain ⟨hr, -⟩ := (a.documentTokens_eq_ok record).1 ht
  rw [Option.getD_none, h.fields] at hr
  exact ⟨_, (b.documentTokens_eq_ok record).2 ⟨hr, rfl⟩⟩

def taken? (result : Result (Corpus β)) : Option (Named Record) :=
  result.toOption.map fun c => c.index.documents

theorem taken?_record (c : Corpus β) (id : String) (tokens : List String) (record : Record) :
    taken? (c.record id tokens record) = if c.index.documents.contains id then none
      else some (c.index.documents.insert id record) := by
  unfold Corpus.record Index.add Index.hasDocument taken?
  split
  next => rfl
  next =>
    have hi := c.index.insert_documents ⟨id, tokens, record⟩
    simpa [Except.map, Except.toOption] using hi

theorem Alike.indexRecord (h : a.Alike b) (record : Record) {c d : Corpus β}
    (hd : c.index.documents = d.index.documents) :
    taken? (a.indexRecord c record) = taken? (b.indexRecord d record) := by
  unfold Analyzer.indexRecord
  cases recordId? record with
  | none => rfl
  | some id =>
    cases ha : a.documentTokens record none with
    | error fault =>
      cases hb : b.documentTokens record none with
      | error other => rfl
      | ok others =>
        obtain ⟨tokens, ht⟩ := h.symm.documentTokens hb
        rw [ha] at ht
        cases ht
    | ok tokens =>
      obtain ⟨others, hb⟩ := h.documentTokens ha
      have he : tokens.isEmpty = others.isEmpty := by
        have hm := h.mem_documentTokens ha hb
        rw [Bool.eq_iff_iff, List.isEmpty_iff, List.isEmpty_iff, List.eq_nil_iff_forall_not_mem,
          List.eq_nil_iff_forall_not_mem]
        simp only [hm]
      simp only [hb, bind, Except.bind, he]
      split
      · simp [taken?, pure, Except.pure, Except.toOption, hd]
      · rw [taken?_record, taken?_record, hd]

theorem Alike.indexRecords (h : a.Alike b) (records : List Record) {c d : Corpus β}
    (hd : c.index.documents = d.index.documents) :
    taken? (a.indexRecords c records) = taken? (b.indexRecords d records) := by
  induction records generalizing c d with
  | nil => simp [Analyzer.indexRecords, taken?, Except.toOption, hd]
  | cons record rest ih =>
    have hs := h.indexRecord record hd
    rw [Analyzer.indexRecords, Analyzer.indexRecords, h.policy]
    cases ha : a.indexRecord c record with
    | error fault =>
      cases hb : b.indexRecord d record with
      | error other =>
        cases b.config.policy with
        | skip => exact ih hd
        | fail => rfl
      | ok grown =>
        rw [ha, hb] at hs
        cases hs
    | ok grown =>
      cases hb : b.indexRecord d record with
      | error other =>
        rw [ha, hb] at hs
        cases hs
      | ok other =>
        rw [ha, hb] at hs
        exact ih (Option.some_injective _ hs)

end Analyzer

theorem Config.effectiveFields_reweighted {config : Config} {weights : Named Float}
    (hk : weights.keys = config.weights.keys) :
    ({ config with weights } : Config).effectiveFields = config.effectiveFields := by
  have he : weights.isEmpty = config.weights.isEmpty := by
    rw [← Std.ExtTreeMap.isEmpty_keys, hk, Std.ExtTreeMap.isEmpty_keys]
  unfold effectiveFields
  simp only [hk, he]

section Words

variable {tokens others : List String} (hw : ∀ word, word ∈ tokens ↔ word ∈ others)
include hw

theorem isInfix_iff_of_length {phrase : List String} (hl : ¬ 2 ≤ phrase.length) :
    phrase <:+: tokens ↔ phrase <:+: others := by
  cases phrase with
  | nil => simp
  | cons word rest =>
    cases rest with
    | nil => rw [List.singleton_infix_iff, List.singleton_infix_iff, hw]
    | cons next rest => simp at hl

theorem Query.Matches.congr {q : Query} {s : StopWords}
    (hp : ∀ phrase ∈ (q.removeStopWords s).phrases, phrase <:+: tokens ↔ phrase <:+: others) :
    q.Matches s tokens ↔ q.Matches s others := by
  rw [matches_iff, matches_iff]
  simp only [hw]
  refine and_congr_right fun _ => and_congr_right fun _ => ?_
  refine forall_congr' fun phrase => forall_congr' fun hm => ?_
  by_cases hn : s.filter phrase = []
  · simp [hn]
  · exact hp _ (List.mem_filter.2 ⟨List.mem_map_of_mem hm, by simpa using hn⟩)

end Words

namespace Engine

variable {β : Type} {records : List Record} {config : Config} {weights : Named Float} {e : Engine β}

def words (e : Engine β) (id field : String) : List String :=
  (e.index.metadata? id).elim [] fun record => e.analyzer.words record field

theorem words_congr {other : Engine β} (ha : e.analyzer.Alike other.analyzer)
    (hd : e.index.documents = other.index.documents) : e.words = other.words := by
  funext id field
  unfold words Index.metadata?
  rw [hd]
  unfold Analyzer.words
  rw [ha.stopWords, ha.tokenizer]

theorem ofRecords_tokens_eq (he : Engine.ofRecords records config = .ok e) (id : String) :
    e.tokens id = config.effectiveFields.flatMap fun field =>
      copies (config.repeatCount field) (e.words id field) := by
  obtain ⟨rfl, docs, hd, -⟩ := ofRecords_holds he
  cases hm : e.index.metadata? id with
  | none =>
    have hn : documentOf? docs id = none := by
      rw [Index.metadata?, hd.holds_index.documents] at hm
      exact Option.map_eq_none_iff.1 hm
    simp [hd.tokens, hn, words, hm, copies]
  | some record =>
    have ht := ((e.analyzer.documentTokens_eq_ok record).1 (ofRecords_tokens he hm)).2
    rw [ht]
    simp only [words, hm, Option.elim_some]
    rfl

theorem isInfix_both_ways {other : Engine β} (hk : weights.keys = config.weights.keys)
    (he : Engine.ofRecords records config = .ok e)
    (ho : Engine.ofRecords records { config with weights } = .ok other)
    (ha : e.analyzer.Alike other.analyzer) (hd : e.index.documents = other.index.documents)
    {id : String} {phrase : List String}
    (h : StandsBothWays config.effectiveFields (e.words id) config.repeatCount
      ({ config with weights } : Config).repeatCount phrase) :
    phrase <:+: e.tokens id ∧ phrase <:+: other.tokens id := by
  have hs := h.symm.isInfix
  rw [words_congr ha hd, ← Config.effectiveFields_reweighted hk] at hs
  rw [ofRecords_tokens_eq he, ofRecords_tokens_eq ho]
  exact ⟨h.isInfix, hs⟩

section Build

variable (hk : weights.keys = config.weights.keys)
  (hc : ({ config with weights } : Config).check = .ok ())
  (he : Engine.ofRecords records config = .ok e)
include hk hc he

theorem ofRecords_reweighted : ∃ other : Engine β,
    Engine.ofRecords records { config with weights } = .ok other ∧
      e.analyzer.Alike other.analyzer ∧ e.index.documents = other.index.documents := by
  obtain ⟨a, ha, he⟩ := Result.bind_eq_ok.1 he
  obtain ⟨c, hb, he⟩ := Result.bind_eq_ok.1 he
  cases he
  obtain ⟨-, ht, rfl⟩ := Analyzer.ofConfig_eq_ok.1 ha
  let b : Analyzer := ⟨{ a.config with weights }, a.tokenizer⟩
  have hofb : Analyzer.ofConfig { a.config with weights } = .ok b :=
    Analyzer.ofConfig_eq_ok.2 ⟨hc, ht, rfl⟩
  have hab : a.Alike b := ⟨(Config.effectiveFields_reweighted hk).symm, rfl, rfl, rfl⟩
  have hd := hab.indexRecords (β := β) records (c := {}) (d := {}) rfl
  rw [show a.indexRecords {} records = .ok c from hb] at hd
  cases hbuilt : b.indexRecords ({} : Corpus β) records with
  | error fault =>
    rw [hbuilt] at hd
    cases hd
  | ok d =>
    rw [hbuilt] at hd
    refine ⟨⟨b, .corpus d⟩, ?_, hab, Option.some_injective _ hd⟩
    rw [Engine.ofRecords, hofb]
    show (b.indexRecords {} records >>= fun corpus => _) = _
    rw [hbuilt]
    rfl

/-- Other weights, for the same fields, change the documents that a query finds only where a count
overflows or a phrase of several words stands over a seam.  Stop words aside, these are the phrases in
a row in the stored words of one engine that do not stand so both ways. -/
theorem search_reweighted : ∃ other : Engine β,
    Engine.ofRecords records { config with weights } = .ok other ∧
      ∀ (text : String) (limit : Nat), records.length ≤ limit → ∃ hits others,
        e.search byFrequency text limit = .ok hits ∧
        other.search byFrequency text limit = .ok others ∧
        ∀ id, Concordance.CountsFit (e.tokens id) → Concordance.CountsFit (other.tokens id) →
          (∀ phrase ∈ (e.parse text).phrases, 2 ≤ phrase.length →
            phrase <:+: e.tokens id ∨ phrase <:+: other.tokens id →
            StandsBothWays config.effectiveFields (e.words id) config.repeatCount
              ({ config with weights } : Config).repeatCount phrase) →
          (id ∈ hits.map Hit.id ↔ id ∈ others.map Hit.id) := by
  obtain ⟨other, ho, ha, hd⟩ := ofRecords_reweighted hk hc he
  refine ⟨other, ho, fun text limit hl => ?_⟩
  obtain ⟨-, docs, hh, -⟩ := ofRecords_holds he
  obtain ⟨-, docs', hh', -⟩ := ofRecords_holds ho
  obtain ⟨hits, hs, hp⟩ := hh.search_byFrequency text ((ofRecords_size he).trans hl)
  obtain ⟨others, hs', hp'⟩ := hh'.search_byFrequency text ((ofRecords_size ho).trans hl)
  refine ⟨hits, others, hs, hs', fun id fit fit' hphrases => ?_⟩
  have hstop : e.config.stopWords = other.config.stopWords := ha.stopWords
  have hsought : e.soughtWords text = other.soughtWords text := by
    rw [soughtWords, hstop, soughtWords]
  have hdoc : e.index.hasDocument id = other.index.hasDocument id := by
    rw [Index.hasDocument, hd, Index.hasDocument]
  rw [hp.mem_iff, hp'.mem_iff, mem_counted_iff_of_fit fit, mem_counted_iff_of_fit fit', mem_found,
    mem_found, ← hstop, ← hdoc, ← hsought]
  refine and_congr_right fun _ => and_congr_right fun hm => ?_
  obtain ⟨record, -, hr, -⟩ := ofRecords_metadata he hm
  have hwords := ha.mem_documentTokens (ofRecords_tokens he hr)
    (ofRecords_tokens ho (by rwa [Index.metadata?, ← hd]))
  refine Query.Matches.congr hwords fun phrase hmem => ?_
  by_cases hl : 2 ≤ phrase.length
  · have hboth := fun h => isInfix_both_ways hk he ho ha hd (hphrases phrase hmem hl h)
    exact ⟨fun h => (hboth (.inl h)).2, fun h => (hboth (.inr h)).1⟩
  · exact isInfix_iff_of_length hwords hl

end Build

theorem search_reweighted_fox :
    let record : Record :=
      .ofList [("id", .str "1"), ("title", .str "Red fox"), ("text", .str "the quick fox")] compare
    let config : Config := { weights := .ofList [("title", 1), ("text", 1)] compare }
    let weights : Named Float := .ofList [("title", 2), ("text", 3)] compare
    weights.keys = config.weights.keys ∧ ({ config with weights } : Config).check = .ok () ∧
      ∃ e other : Engine Unit, Engine.ofRecords [record] config = .ok e ∧
        Engine.ofRecords [record] { config with weights } = .ok other ∧
        Concordance.CountsFit (e.tokens "1") ∧ Concordance.CountsFit (other.tokens "1") ∧
        ∃ hits others, e.search byFrequency "\"fox red\" quick" 1 = .ok hits ∧
          other.search byFrequency "\"fox red\" quick" 1 = .ok others ∧
          ("1" ∈ hits.map Hit.id ↔ "1" ∈ others.map Hit.id) := by
  intro record config weights
  have hk : weights.keys = config.weights.keys := by decide +kernel
  obtain ⟨⟨⟩, hc, -⟩ : ∃ u, ({ config with weights } : Config).check = .ok u ∧ true = true :=
    Result.exists_of_any (by decide +kernel)
  obtain ⟨e, he, hok⟩ : ∃ e : Engine Unit, Engine.ofRecords [record] config = .ok e ∧
      decide (Concordance.CountsFit (e.tokens "1") ∧ (e.parse "\"fox red\" quick").phrases = [["fox", "red"]] ∧
        ["fox", "red"] <:+: config.effectiveFields.flatMap fun field =>
          copies (min (config.repeatCount field)
            (({ config with weights } : Config).repeatCount field)) (e.words "1" field)) = true :=
    Result.exists_of_any (by decide +kernel)
  obtain ⟨fit, hparse, hphrase⟩ := of_decide_eq_true hok
  have hi : ∀ field ∈ config.effectiveFields.tail.dropLast, e.words "1" field ≠ [] →
      config.repeatCount field = ({ config with weights } : Config).repeatCount field := by
    have hn : config.effectiveFields.tail.dropLast = [] := by decide +kernel
    simp [hn]
  obtain ⟨other, ho, hsame⟩ := search_reweighted hk hc he
  obtain ⟨hits, others, hs, hs', hiff⟩ := hsame "\"fox red\" quick" 1 (by simp)
  have fit' : Concordance.CountsFit (other.tokens "1") := by
    obtain ⟨reweighted, hr, hfit⟩ : ∃ reweighted : Engine Unit,
        Engine.ofRecords [record] { config with weights } = .ok reweighted ∧
        decide (Concordance.CountsFit (reweighted.tokens "1")) = true :=
      Result.exists_of_any (by decide +kernel)
    cases ho.symm.trans hr
    exact of_decide_eq_true hfit
  refine ⟨hk, hc, e, other, he, ho, fit, fit', hits, others, hs, hs',
    hiff "1" fit fit' fun phrase hm _ _ => ?_⟩
  rw [hparse, List.mem_singleton] at hm
  rw [hm]
  exact ⟨config.effectiveFields, List.infix_rfl, hi, hphrase⟩

/-- A field that counts twice has a seam between its copies, and a phrase over it. -/
theorem search_over_seam :
    let record : Record := .ofList [("id", .str "1"), ("text", .str "red fox")] compare
    let config : Config := { weights := .ofList [("text", 1)] compare }
    let weights : Named Float := .ofList [("text", 2)] compare
    weights.keys = config.weights.keys ∧
      ∃ e other : Engine Unit, Engine.ofRecords [record] config = .ok e ∧
        Engine.ofRecords [record] { config with weights } = .ok other ∧
        ∃ hits others, e.search byFrequency "\"fox red\"" 1 = .ok hits ∧
          other.search byFrequency "\"fox red\"" 1 = .ok others ∧
          hits.map Hit.id = [] ∧ others.map Hit.id = ["1"] := by
  intro record config weights
  have hk : weights.keys = config.weights.keys := by decide +kernel
  obtain ⟨e, he, hok⟩ : ∃ e : Engine Unit, Engine.ofRecords [record] config = .ok e ∧
      (e.search byFrequency "\"fox red\"" 1).toOption.any
        (fun hits => decide (hits.map Hit.id = [])) = true :=
    Result.exists_of_any (by decide +kernel)
  obtain ⟨other, ho, hok'⟩ : ∃ other : Engine Unit,
      Engine.ofRecords [record] { config with weights } = .ok other ∧
      (other.search byFrequency "\"fox red\"" 1).toOption.any
        (fun hits => decide (hits.map Hit.id = ["1"])) = true :=
    Result.exists_of_any (by decide +kernel)
  obtain ⟨hits, hs, hids⟩ := Result.exists_of_any hok
  obtain ⟨others, hs', hids'⟩ := Result.exists_of_any hok'
  exact ⟨hk, e, other, he, ho, hits, others, hs, hs', of_decide_eq_true hids,
    of_decide_eq_true hids'⟩

end Engine

end Concordance

import Concordance.Proofs.Analysis.Tokens
import Concordance.Proofs.Engine.RecordOrder
import Concordance.Proofs.Engine.Restore

/-!
The two policies for records at fault.  Which record is at fault, and with which error, is said of the
list of records alone.  Under the strict policy the first such record ends the work.  Under the other
one all records are gone through, and where none is at fault both make the same corpus.
-/

namespace Concordance

theorem documentOf?_foldl_accept (docs more : List Document) (id : String) :
    documentOf? (more.foldl accept docs) id = (documentOf? docs id).or (documentOf? more id) := by
  induction more generalizing docs with
  | nil => simp [documentOf?]
  | cons d more ih =>
    have hs : documentOf? (accept docs d) id =
        (documentOf? docs id).or (if d.id = id then some d else none) := by
      unfold accept
      split
      next hd =>
        by_cases he : d.id = id
        · obtain ⟨other, ho, hi⟩ := List.mem_map.1 hd
          have hf : (documentOf? docs id).isSome = true :=
            List.find?_isSome.2 ⟨other, ho, by simp [hi, he]⟩
          simp [Option.or_of_isSome hf]
        · simp [he]
      next hd =>
        rw [documentOf?_append _ _ _ hd]
        by_cases he : d.id = id
        · subst he
          have hf : documentOf? docs d.id = none := by
            refine List.find?_eq_none.2 fun other ho hi => hd ?_
            rw [← eq_of_beq hi]
            exact List.mem_map_of_mem ho
          simp [hf]
        · simp [he]
    rw [List.foldl_cons, ih, hs, Option.or_assoc]
    by_cases he : d.id = id <;> simp [documentOf?, he]

theorem documentOf?_firsts (docs : List Document) (id : String) :
    documentOf? (firsts docs) id = documentOf? docs id := by
  rw [firsts, documentOf?_foldl_accept]
  rfl

theorem mem_ids_iff {docs : List Document} {id : String} :
    id ∈ docs.map Document.id ↔ (documentOf? docs id).isSome = true := by
  simp [documentOf?]

namespace Analyzer

variable {β : Type} {a : Analyzer}

theorem document?_eq_some {record : Record} {d : Document} : a.document? record = some d ↔
    recordId? record = some d.id ∧ a.documentTokens record none = .ok d.tokens ∧ d.tokens ≠ [] ∧
      d.metadata = record := by
  obtain ⟨id, tokens, metadata⟩ := d
  constructor
  · intro h
    obtain ⟨id, hi, h⟩ := Option.bind_eq_some_iff.1 h
    obtain ⟨tokens, ht, h⟩ := Option.bind_eq_some_iff.1 h
    split at h
    · cases h
    next hn =>
      cases h
      cases hd : a.documentTokens record none with
      | error fault =>
        rw [hd] at ht
        cases ht
      | ok words =>
        rw [hd] at ht
        cases ht
        exact ⟨hi, rfl, by simpa using hn, rfl⟩
  · rintro ⟨hi, ht, hn, rfl⟩
    simp only at hi ht hn
    simp [document?, hi, ht, hn, Except.toOption]

/-- What is wrong with a record that comes behind others: it has no identifier, or else a field that
cannot be read, or else tokens under an identifier that a document of the others has. -/
inductive Faulty (a : Analyzer) (before : List Record) (record : Record) : Error → Prop where
  | missingId : recordId? record = none → Faulty a before record (.record .missingId)
  | notText {id field : String} : recordId? record = some id →
      FirstUnreadable record a.config.effectiveFields field →
      Faulty a before record (.record (.notText field))
  | duplicate {d other : Document} : a.document? record = some d →
      other ∈ before.filterMap a.document? → other.id = d.id →
      Faulty a before record (.duplicateDocument d.id)

def Sound (a : Analyzer) (records : List Record) : Prop :=
  ¬ ∃ before record after, records = before ++ record :: after ∧
    ∃ fault, a.Faulty before record fault

theorem sound_nil : a.Sound [] := by simp [Sound]

theorem sound_concat {records : List Record} {record : Record} :
    a.Sound (records ++ [record]) ↔ a.Sound records ∧ ∀ fault, ¬ a.Faulty records record fault := by
  rw [Sound, exists_split_concat, not_or, Sound, not_exists (p := a.Faulty records record)]

section Step

variable {c : Corpus β} {before : List Record} {record : Record} {fault : Error}
  (h : c.Holds (firsts (before.filterMap a.document?)))
include h

theorem Faulty.indexRecord (hf : a.Faulty before record fault) :
    a.indexRecord c record = .error fault := by
  cases hf with
  | missingId hi => simp [Analyzer.indexRecord, hi]
  | notText hi hu =>
    have he : a.documentTokens record none = .error _ :=
      (a.documentTokens_eq_error record).2 ⟨_, hu, rfl⟩
    simp [Analyzer.indexRecord, hi, he, bind, Except.bind]
  | @duplicate d other hd ho he =>
    obtain ⟨hi, ht, hn, rfl⟩ := document?_eq_some.1 hd
    have hm : d.id ∈ (firsts (before.filterMap a.document?)).map Document.id := by
      rw [mem_ids_iff, documentOf?_firsts, ← mem_ids_iff, ← he]
      exact List.mem_map_of_mem ho
    simp [Analyzer.indexRecord, hi, ht, bind, Except.bind, hn, Corpus.record_taken h hm]

theorem faulty_of_indexRecord (he : a.indexRecord c record = .error fault) :
    a.Faulty before record fault := by
  unfold indexRecord at he
  split at he
  next hi =>
    cases he
    exact .missingId hi
  next id hi =>
    cases ht : a.documentTokens record none with
    | error other =>
      rw [ht] at he
      cases he
      obtain ⟨field, hu, rfl⟩ := (a.documentTokens_eq_error record).1 ht
      exact .notText hi hu
    | ok tokens =>
      simp only [ht, bind, Except.bind] at he
      split at he
      · cases he
      next hn =>
        have hd : a.document? record = some ⟨id, tokens, record⟩ :=
          document?_eq_some.2 ⟨hi, ht, by simpa using hn, rfl⟩
        by_cases hm : id ∈ (firsts (before.filterMap a.document?)).map Document.id
        · rw [Corpus.record_taken (d := ⟨id, tokens, record⟩) h hm] at he
          cases he
          rw [mem_ids_iff, documentOf?_firsts, ← mem_ids_iff] at hm
          obtain ⟨other, ho, hi'⟩ := List.mem_map.1 hm
          exact .duplicate hd ho hi'
        · obtain ⟨grown, hr, -⟩ := Corpus.record_new (d := ⟨id, tokens, record⟩) h hm
          rw [hr] at he
          cases he

end Step

theorem indexRecords_withPolicy_skip (records : List Record) {c grown : Corpus β}
    (hr : a.indexRecords c records = .ok grown) :
    (a.withPolicy .skip).indexRecords c records = .ok grown := by
  induction records generalizing c with
  | nil => exact hr
  | cons record rest ih =>
    have hi : (a.withPolicy .skip).indexRecord c record = a.indexRecord c record := rfl
    have hs : (a.withPolicy .skip).config.policy = .skip := rfl
    rw [indexRecords] at hr ⊢
    rw [hi, hs]
    cases hc : a.indexRecord c record with
    | ok next =>
      rw [hc] at hr
      exact ih hr
    | error fault =>
      rw [hc] at hr
      cases hp : a.config.policy with
      | skip =>
        rw [hp] at hr
        exact ih hr
      | fail =>
        rw [hp] at hr
        cases hr

theorem build_holds {records : List Record} {c : Corpus β} (h : a.build records = .ok c) :
    c.Holds (firsts (records.filterMap a.document?)) := by
  obtain ⟨grown, hg, -, hh⟩ := indexRecords_skip (a := a.withPolicy .skip) rfl records
    (Corpus.holds_nil (β := β))
  rw [indexRecords_withPolicy_skip records h] at hg
  cases hg
  exact hh

section Strict

variable (hp : a.config.policy = .fail)
include hp

theorem indexRecords_eq_foldlM (c : Corpus β) (records : List Record) :
    a.indexRecords c records = records.foldlM a.indexRecord c := by
  induction records generalizing c with
  | nil => rfl
  | cons record rest ih =>
    rw [indexRecords, List.foldlM_cons, hp]
    cases a.indexRecord c record with
    | ok next => exact ih next
    | error fault => rfl

theorem build_concat (records : List Record) (record : Record) :
    a.build (β := β) (records ++ [record]) =
      a.build records >>= fun c => a.indexRecord c record := by
  simp [build, indexRecords_eq_foldlM hp]

theorem build_strict (records : List Record) :
    ((∃ c : Corpus β, a.build records = .ok c) ↔ a.Sound records) ∧
      ∀ fault, a.build (β := β) records = .error fault ↔ ∃ before record after,
        records = before ++ record :: after ∧ a.Sound before ∧ a.Faulty before record fault := by
  induction records using List.reverseRecOn with
  | nil =>
    have hb : a.build (β := β) [] = .ok {} := rfl
    simp [hb, sound_nil]
  | append_singleton records record ih =>
    obtain ⟨hok, herror⟩ := ih
    simp only [build_concat hp, sound_concat, exists_split_concat, ← hok, ← herror]
    cases hb : a.build (β := β) records with
    | error fault => simp [bind, Except.bind]
    | ok c =>
      have hf : ∀ fault, a.Faulty records record fault ↔ a.indexRecord c record = .error fault :=
        fun fault => ⟨Faulty.indexRecord (build_holds hb), faulty_of_indexRecord (build_holds hb)⟩
      simp only [hf]
      cases hr : a.indexRecord c record <;> simp [bind, Except.bind, hr]

end Strict

theorem metadata_documentOf? (records : List Record) (id : String) :
    (documentOf? (records.filterMap a.document?) id).map Document.metadata =
      records.find? fun record => (a.document? record).any (·.id == id) := by
  rw [documentOf?, List.find?_filterMap]
  cases hf : records.find? fun record => (a.document? record).any (·.id == id) with
  | none => rfl
  | some record =>
    have ha : (a.document? record).any (·.id == id) = true :=
      List.find?_some (p := fun record => (a.document? record).any (·.id == id)) hf
    obtain ⟨d, hd, -⟩ := (Option.any_eq_true ..).1 ha
    simp [hd, (document?_eq_some.1 hd).2.2.2]

/-- The strict policy makes a corpus iff no record is at fault when it is reached, and then the same
as the lenient policy; otherwise it ends with the error of the first record at fault.  The lenient
policy always makes a corpus, of the first record of each identifier that makes a document. -/
theorem build_policies {config : Config} {strict lenient : Analyzer}
    (hs : ofConfig { config with policy := .fail } = .ok strict)
    (hl : ofConfig { config with policy := .skip } = .ok lenient) (records : List Record) :
    ((∃ c : Corpus β, strict.build records = .ok c) ↔ strict.Sound records) ∧
      (∀ c : Corpus β, strict.build records = .ok c → lenient.build records = .ok c) ∧
      (∀ fault, strict.build (β := β) records = .error fault ↔ ∃ before record after,
        records = before ++ record :: after ∧ strict.Sound before ∧
          strict.Faulty before record fault) ∧
      ∃ c : Corpus β, lenient.build records = .ok c ∧
        c.Describes (firsts (records.filterMap lenient.document?)) ∧
        ∀ id, c.index.metadata? id =
          records.find? fun record => (lenient.document? record).any (·.id == id) := by
  have hstrict : strict.config.policy = .fail := by rw [ofConfig_config hs]
  have hskip : lenient.config.policy = .skip := by rw [ofConfig_config hl]
  have hw : strict.withPolicy .skip = lenient := by
    have h := ofConfig_policy hs .skip
    rw [hl] at h
    exact (Except.ok.inj h).symm
  obtain ⟨hok, herror⟩ := build_strict (β := β) hstrict records
  obtain ⟨c, hb, -, hh⟩ := indexRecords_skip hskip records (Corpus.holds_nil (β := β))
  refine ⟨hok, fun c hc => ?_, herror, c, hb, hh.describes, fun id => ?_⟩
  · rw [← hw]
    exact indexRecords_withPolicy_skip records hc
  · rw [hh.describes.metadata]
    have hf := documentOf?_firsts (records.filterMap lenient.document?) id
    rw [firsts] at hf
    rw [hf, metadata_documentOf?]

theorem build_policies_foxes :
    let config : Config := { fields := some ["title", "text"] }
    let records : List Record := [
      .ofList [("id", .str "1"), ("text", .str "The")] compare,
      .ofList [("id", .int 1), ("text", .str "red fox"), ("title", .null)] compare,
      .ofList [("id", .str "1"), ("text", .str "hen"), ("title", .str "A hen")] compare,
      .ofList [("text", .bool true)] compare]
    ∃ strict lenient : Analyzer, ofConfig { config with policy := .fail } = .ok strict ∧
      ofConfig { config with policy := .skip } = .ok lenient ∧
      ((∃ c : Corpus Unit, strict.build records = .ok c) ↔ strict.Sound records) ∧
      (∀ c : Corpus Unit, strict.build records = .ok c → lenient.build records = .ok c) ∧
      (∀ fault, strict.build (β := Unit) records = .error fault ↔ ∃ before record after,
        records = before ++ record :: after ∧ strict.Sound before ∧
          strict.Faulty before record fault) ∧
      ∃ c : Corpus Unit, lenient.build records = .ok c ∧
        c.Describes (firsts (records.filterMap lenient.document?)) ∧
        ∀ id, c.index.metadata? id =
          records.find? fun record => (lenient.document? record).any (·.id == id) := by
  intro config records
  obtain ⟨strict, hs, -⟩ : ∃ a, ofConfig { config with policy := .fail } = .ok a ∧ true = true :=
    Result.exists_of_any (p := fun _ => true) (by decide +kernel)
  obtain ⟨lenient, hl, -⟩ : ∃ a, ofConfig { config with policy := .skip } = .ok a ∧ true = true :=
    Result.exists_of_any (p := fun _ => true) (by decide +kernel)
  exact ⟨strict, lenient, hs, hl, build_policies hs hl records⟩

end Analyzer

end Concordance

import Concordance.Proofs.Analysis.Policies

namespace Concordance

variable {β σ : Type}

theorem Index.Holds.unique {index other : Index} {docs : List Document} (h : index.Holds docs)
    (ho : other.Holds docs) : index = other := by
  have hd : index.documents = other.documents := Std.ExtTreeMap.ext_getElem? fun id => by
    rw [h.documents, ho.documents]
  have hp : index.postings = other.postings := Std.ExtTreeMap.ext_getElem? fun token => by
    rw [h.postings, ho.postings]
  have hf : index.docFreqs = other.docFreqs := Std.ExtTreeMap.ext_getElem? fun token => by
    rw [h.docFreqs, ho.docFreqs, hp]
  have hs := (h.alike ho (.refl docs)).stats
  obtain ⟨postings, docFreqs, documents, stats⟩ := index
  cases hd
  cases hp
  cases hf
  cases hs
  rfl

theorem Corpus.Holds.unique {c other : Corpus β} {docs : List Document} (h : c.Holds docs)
    (ho : other.Holds docs) (hs : c.signal = other.signal) : c = other := by
  have hi := h.index.unique ho.index
  have hh : c.history = other.history := Std.ExtTreeMap.ext_getElem? fun id => by
    rw [h.history, ho.history]
  obtain ⟨index, history, signal⟩ := c
  cases hi
  cases hh
  cases hs
  rfl

namespace Engine

section Add

variable {m : Type → Type} [Monad m]

/-- Adds a record under its identifier, and does nothing without one. Errors are passed over. -/
def addRecord (react : React m β) (e : Engine β) (record : Record) : m (Engine β) :=
  match recordId? record with
  | none => pure e
  | some id => Prod.fst <$> e.add react id record none

def addRecords (react : React m β) (e : Engine β) (records : List Record) : m (Engine β) :=
  records.foldlM (addRecord react) e

end Add

theorem Holds.unique {e other : Engine β} {docs : List Document} (h : e.Holds docs)
    (ho : other.Holds docs) (ha : e.analyzer = other.analyzer) : e = other := by
  obtain ⟨-, c, he, hc, hs⟩ := h
  obtain ⟨-, c', ho, hc', hs'⟩ := ho
  have hcorpus := hc.unique hc' (hs.trans hs'.symm)
  obtain ⟨analyzer, documents⟩ := e
  cases ha
  cases he
  rw [hcorpus, ← ho]

section State

variable (react : React (StateM σ) β) {e : Engine β} {docs : List Document}

theorem run_addRecord {record : Record} {id : String} (hi : recordId? record = some id) (s : σ) :
    ((e.addRecord react record).run s).1 = ((e.add react id record none).run s).1.1 := by
  rw [Engine.addRecord, hi]
  rfl

theorem Holds.addRecord (h : e.Holds docs) {record : Record}
    (hn : recordId? record ≠ none → e.analyzer.documentTokens record none ≠ .ok []) (s : σ) :
    ((e.addRecord react record).run s).1.analyzer = e.analyzer ∧
      ((e.addRecord react record).run s).1.Holds
        ((e.analyzer.document? record).toList.foldl accept docs) := by
  cases hi : recordId? record with
  | none =>
    rw [Analyzer.document?, hi, Engine.addRecord, hi]
    exact ⟨rfl, h⟩
  | some id =>
    rw [run_addRecord react hi]
    refine ⟨(h.add_cases react id record none s).1, ?_⟩
    have ha := h.add_accept react id record none s
    have ht := hn (by simp [hi])
    cases hd : e.analyzer.documentTokens record none with
    | error fault =>
      rw [hd] at ha
      rw [Analyzer.document?, hi, hd]
      exact ha
    | ok tokens =>
      rw [hd] at ha ht
      have hs : e.analyzer.document? record = some ⟨id, tokens, record⟩ :=
        Analyzer.document?_eq_some.2 ⟨hi, hd, fun hz => ht (congrArg _ hz), rfl⟩
      rw [hs]
      exact ha

theorem Holds.addRecords (h : e.Holds docs) {records : List Record}
    (hn : ∀ record ∈ records, recordId? record ≠ none →
      e.analyzer.documentTokens record none ≠ .ok []) (s : σ) :
    ((e.addRecords react records).run s).1.analyzer = e.analyzer ∧
      ((e.addRecords react records).run s).1.Holds
        ((records.filterMap e.analyzer.document?).foldl accept docs) := by
  induction records generalizing e docs s with
  | nil => exact ⟨rfl, h⟩
  | cons record rest ih =>
    obtain ⟨ha, hd⟩ := h.addRecord react (hn record (by simp)) s
    have hrest := ih hd (by rw [ha]; exact fun r hr => hn r (by simp [hr]))
      ((e.addRecord react record).run s).2
    rw [ha, ← List.foldl_append, ← filterMap_cons_toList] at hrest
    exact hrest

end State

/-- Where records at fault are skipped and none comes to nothing, adding records one by one to an
engine of no records makes the engine that is built from all of them: its snapshot is the same, and so
is every answer. -/
theorem snapshot_addRecords {config : Config} {a : Analyzer}
    (ha : Analyzer.ofConfig config = .ok a) (hs : config.policy = .skip) {records : List Record}
    (hr : ∀ record ∈ records, recordId? record ≠ none →
      (∃ tokens, a.documentTokens record none = .ok tokens ∧ tokens ≠ []) ∨
        ∃ field ∈ config.effectiveFields, ¬ Readable record field)
    (react : React (StateM σ) β) (s : σ) :
    ∃ start e : Engine β, Engine.ofRecords [] config = .ok start ∧
      Engine.ofRecords records config = .ok e ∧
      let grown := ((start.addRecords react records).run s).1
      grown.snapshot = e.snapshot ∧
        ∀ (α : Type) [Scalar α] (score : Scorer α) (text : String) (limit : Nat),
          grown.search score text limit = e.search score text limit := by
  obtain ⟨start, hstart, hsa, hsd⟩ := ofRecords_skip (β := β) ha hs []
  obtain ⟨e, he, hea, hed⟩ := ofRecords_skip (β := β) ha hs records
  have hn : ∀ record ∈ records, recordId? record ≠ none →
      start.analyzer.documentTokens record none ≠ .ok [] := by
    intro record hm hid hz
    rw [hsa] at hz
    rcases hr record hm hid with ⟨tokens, ht, hne⟩ | ⟨field, hf, hu⟩
    · rw [ht] at hz
      exact hne (Except.ok.inj hz)
    · rw [← Analyzer.ofConfig_config ha] at hf
      exact hu (((a.documentTokens_eq_ok record).1 hz).1 field hf)
  obtain ⟨hga, hgd⟩ := hsd.addRecords react hn s
  rw [hsa] at hga hgd
  have heq : ((start.addRecords react records).run s).1 = e := hgd.unique hed (hga.trans hea.symm)
  refine ⟨start, e, hstart, he, ?_⟩
  rw [heq]
  exact ⟨rfl, fun α _ score text limit => rfl⟩

theorem snapshot_addRecords_foxes :
    let told : List Record := [
      .ofList [("id", .int 1), ("text", .str "The quick red fox")] compare,
      .ofList [("id", .str "1"), ("text", .str "a hen")] compare,
      .ofList [("id", .str "2"), ("text", .str "red hen")] compare]
    let refused : Record := .ofList [("id", .str "2"), ("text", .bool true)] compare
    let unnamed : Record := .ofList [("text", .str "The")] compare
    let records := refused :: unnamed :: told
    let react : React (StateM Unit) Unit := fun _ _ => pure ((), .ok ())
    ∃ a : Analyzer, Analyzer.ofConfig {} = .ok a ∧ ({} : Config).policy = .skip ∧
      (∀ record ∈ records, recordId? record ≠ none →
        (∃ tokens, a.documentTokens record none = .ok tokens ∧ tokens ≠ []) ∨
          ∃ field ∈ ({} : Config).effectiveFields, ¬ Readable record field) ∧
      ∃ start e : Engine Unit, Engine.ofRecords [] {} = .ok start ∧
        Engine.ofRecords records {} = .ok e ∧
        let grown := ((start.addRecords react records).run ()).1
        grown.snapshot = e.snapshot ∧
          ∀ (α : Type) [Scalar α] (score : Scorer α) (text : String) (limit : Nat),
            grown.search score text limit = e.search score text limit := by
  intro told refused unnamed records react
  obtain ⟨a, ha, hok⟩ : ∃ a : Analyzer, Analyzer.ofConfig {} = .ok a ∧ (told.all fun record =>
      (a.documentTokens record none).toOption.any fun tokens => !tokens.isEmpty) = true :=
    Result.exists_of_any (by decide +kernel)
  have hunnamed : recordId? unnamed = none := by decide +kernel
  have hrefused : ¬ Readable refused "text" := fun h => by
    have hv : refused["text"]? = some (.bool true) := rfl
    simpa using h _ hv
  have hr : ∀ record ∈ records, recordId? record ≠ none →
      (∃ tokens, a.documentTokens record none = .ok tokens ∧ tokens ≠ []) ∨
        ∃ field ∈ ({} : Config).effectiveFields, ¬ Readable record field := by
    intro record hm hid
    rcases List.mem_cons.1 hm with rfl | hm
    · exact .inr ⟨"text", by decide +kernel, hrefused⟩
    · rcases List.mem_cons.1 hm with rfl | hm
      · exact absurd hunnamed hid
      · obtain ⟨tokens, ht, hn⟩ := Result.exists_of_any (List.all_eq_true.1 hok record hm)
        exact .inl ⟨tokens, ht, by simpa using hn⟩
  exact ⟨a, ha, rfl, hr, snapshot_addRecords ha rfl hr react ()⟩

/-- A field that holds `null` is read as one that is absent. A record with no other field to read
has no tokens, is passed over when an engine is built and is taken in when it is added. -/
theorem snapshot_addRecords_null :
    let blank : Record := .ofList [("id", .str "1"), ("text", .null)] compare
    let react : React (StateM Unit) Unit := fun _ _ => pure ((), .ok ())
    ∃ a : Analyzer, Analyzer.ofConfig {} = .ok a ∧ ({} : Config).policy = .skip ∧
      (∀ record ∈ [blank], recordId? record ≠ none →
        (∃ tokens, a.documentTokens record none = .ok tokens ∧ tokens ≠ []) ∨
          ∃ field ∈ ({} : Config).effectiveFields, ∃ value, record[field]? = some value ∧
            ∀ text, value ≠ .str text) ∧
      ∃ start e : Engine Unit, Engine.ofRecords [] {} = .ok start ∧
        Engine.ofRecords [blank] {} = .ok e ∧
        ((start.addRecords react [blank]).run ()).1.snapshot ≠ e.snapshot := by
  intro blank react
  obtain ⟨a, ha, -⟩ : ∃ a : Analyzer, Analyzer.ofConfig {} = .ok a ∧ true = true :=
    Result.exists_of_any (p := fun _ => true) (by decide +kernel)
  obtain ⟨start, hstart, hadded⟩ : ∃ start : Engine Unit, Engine.ofRecords [] {} = .ok start ∧
      ((start.addRecords react [blank]).run ()).1.index.hasDocument "1" = true :=
    Result.exists_of_any (by decide +kernel)
  obtain ⟨e, he, hskipped⟩ : ∃ e : Engine Unit, Engine.ofRecords [blank] {} = .ok e ∧
      (!e.index.hasDocument "1") = true :=
    Result.exists_of_any (by decide +kernel)
  have hnull : ∃ field ∈ ({} : Config).effectiveFields, ∃ value, blank[field]? = some value ∧
      ∀ text, value ≠ .str text :=
    ⟨"text", by decide +kernel, .null, rfl, fun text h => by cases h⟩
  refine ⟨a, ha, rfl, fun record hm _ => .inr ?_, start, e, hstart, he, fun heq => ?_⟩
  · rw [List.mem_singleton.1 hm]
    exact hnull
  · have hindex : ((start.addRecords react [blank]).run ()).1.index = e.index :=
      congrArg Snapshot.index heq
    rw [hindex] at hadded
    simp [hadded] at hskipped

end Engine

end Concordance

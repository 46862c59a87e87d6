import Concordance.Proofs.Engine.Evaluation
import Concordance.Proofs.Ranking.Lookups

namespace Concordance

section Accept

variable {docs : List Document}

theorem foldl_accept {more : List Document} (h : ((docs ++ more).map Document.id).Nodup) :
    more.foldl accept docs = docs ++ more := by
  induction more generalizing docs with
  | nil => simp
  | cons d more ih =>
    have hd : d.id ∉ docs.map Document.id := by
      intro hm
      rw [List.map_append, List.nodup_append] at h
      exact h.2.2 d.id hm d.id (by simp) rfl
    rw [List.foldl_cons, accept, if_neg hd, ih (by simpa using h), List.append_assoc,
      List.singleton_append]

theorem firsts_eq_self (h : (docs.map Document.id).Nodup) : firsts docs = docs :=
  foldl_accept (by simpa using h)

end Accept

theorem filterMap_cons_toList {α γ : Type} (f : α → Option γ) (a : α) (rest : List α) :
    (a :: rest).filterMap f = (f a).toList ++ rest.filterMap f := by
  rw [List.filterMap_eq_flatMap_toList, List.filterMap_eq_flatMap_toList, List.flatMap_cons]

namespace Analyzer

variable {β : Type} {a : Analyzer}

/-- The document that a record makes; none if it has no identifier, cannot be analyzed or has no
tokens. -/
def document? (a : Analyzer) (record : Record) : Option Document := do
  let id ← recordId? record
  let tokens ← (a.documentTokens record none).toOption
  if tokens.isEmpty then none else some ⟨id, tokens, record⟩

theorem recordId?_of_document? {record : Record} {d : Document}
    (h : a.document? record = some d) : recordId? record = some d.id := by
  obtain ⟨id, hi, h⟩ := Option.bind_eq_some_iff.1 h
  obtain ⟨tokens, -, h⟩ := Option.bind_eq_some_iff.1 h
  split at h
  · cases h
  · cases h
    exact hi

theorem document?_ids (a : Analyzer) (records : List Record) :
    ((records.filterMap a.document?).map Document.id).Sublist (records.filterMap recordId?) := by
  induction records with
  | nil => simp
  | cons record rest ih =>
    cases hd : a.document? record with
    | none =>
      rw [List.filterMap_cons_none hd]
      cases hi : recordId? record with
      | none => rwa [List.filterMap_cons_none hi]
      | some id =>
        rw [List.filterMap_cons_some hi]
        exact ih.cons id
    | some d =>
      rw [List.filterMap_cons_some hd, List.filterMap_cons_some (recordId?_of_document? hd)]
      exact ih.cons_cons d.id

theorem indexRecord_cases {c : Corpus β} {docs : List Document} (h : c.Holds docs)
    (record : Record) :
    ((∃ fault, a.indexRecord c record = .error fault) ∧
        (a.document? record).toList.foldl accept docs = docs) ∨
      ∃ grown, a.indexRecord c record = .ok grown ∧ grown.signal = c.signal ∧
        grown.Holds ((a.document? record).toList.foldl accept docs) := by
  unfold indexRecord document?
  cases recordId? record with
  | none => exact .inl ⟨⟨_, rfl⟩, rfl⟩
  | some id =>
    cases a.documentTokens record none with
    | error fault => exact .inl ⟨⟨fault, rfl⟩, rfl⟩
    | ok tokens =>
      by_cases ht : tokens.isEmpty = true
      · obtain rfl := List.isEmpty_iff.1 ht
        exact .inr ⟨c, rfl, rfl, h⟩
      · simp only [ht, bind, Except.bind, Except.toOption, Option.bind_some]
        by_cases hd : id ∈ docs.map Document.id
        · refine .inl ⟨⟨.duplicateDocument id, ?_⟩, ?_⟩
          · exact Corpus.record_taken (d := ⟨id, tokens, record⟩) h hd
          · simp [accept, hd]
        · obtain ⟨grown, hr, hg, hs⟩ := Corpus.record_new (d := ⟨id, tokens, record⟩) h hd
          exact .inr ⟨grown, hr, hs, by simpa [accept, hd] using hg⟩

theorem indexRecords_skip (hs : a.config.policy = .skip) (records : List Record) {c : Corpus β}
    {docs : List Document} (h : c.Holds docs) :
    ∃ grown, a.indexRecords c records = .ok grown ∧ grown.signal = c.signal ∧
      grown.Holds ((records.filterMap a.document?).foldl accept docs) := by
  induction records generalizing c docs with
  | nil => exact ⟨c, rfl, rfl, h⟩
  | cons record rest ih =>
    rw [indexRecords, filterMap_cons_toList, List.foldl_append]
    rcases indexRecord_cases (a := a) h record with ⟨⟨fault, hr⟩, hd⟩ | ⟨grown, hr, hg, hd⟩
    · rw [hr, hs, hd]
      exact ih h
    · rw [hr, ← hg]
      exact ih hd

end Analyzer

namespace Engine

variable {β α : Type} [Scalar α]

theorem ofRecords_skip {config : Config} {a : Analyzer} (ha : Analyzer.ofConfig config = .ok a)
    (hs : config.policy = .skip) (records : List Record) :
    ∃ e : Engine β, Engine.ofRecords records config = .ok e ∧ e.analyzer = a ∧
      e.Holds (firsts (records.filterMap a.document?)) := by
  have hc := Analyzer.ofConfig_config ha
  obtain ⟨c, hb, hsig, hd⟩ := Analyzer.indexRecords_skip (a := a) (by rw [hc, hs]) records
    (Corpus.holds_nil (β := β))
  refine ⟨⟨a, .corpus c⟩, ?_, rfl, ?_, c, rfl, hd, hsig⟩
  · rw [ofRecords, ha]
    show (a.indexRecords {} records >>= fun corpus => _) = _
    rw [hb]
    rfl
  · rwa [← hc] at ha

/-- Engines with one analyzer that hold the same documents, added in different orders, scan alike. -/
theorem Holds.scan_perm {e other : Engine β} {docs others : List Document} (h : e.Holds docs)
    (ho : other.Holds others) (ha : e.analyzer = other.analyzer) (hp : docs.Perm others)
    (ranking : Ranking α) (text : String) (limit : Nat) :
    e.scan ranking.scorer text limit = other.scan ranking.scorer text limit := by
  have hi := h.holds_index.alike ho.holds_index hp
  have hc : e.config = other.config := congrArg Analyzer.config ha
  have ht : ∀ id, e.tokens id = other.tokens id := fun id => by
    rw [h.tokens, ho.tokens, documentOf?_perm hp h.holds_index.distinct]
  have hr := fun tokens id => Ranking.scorer_congr hi ranking tokens id
  unfold scan
  simp only [hc, ht, hr, hi.documents]

/-- The order of records does not show in searches: of records whose identifiers differ, in whichever
order, the same hits are found in the same order, with the same scores. -/
theorem search_records_perm {config : Config} {a : Analyzer}
    (ha : Analyzer.ofConfig config = .ok a) (hs : config.policy = .skip)
    {records others : List Record} (hd : (records.filterMap recordId?).Nodup)
    (hp : records.Perm others) :
    ∃ e other : Engine β, Engine.ofRecords records config = .ok e ∧
      Engine.ofRecords others config = .ok other ∧
      ∀ (ranking : Ranking α) (text : String) (limit : Nat), ∃ hits,
        e.search ranking.scorer text limit = .ok hits ∧
        other.search ranking.scorer text limit = .ok hits := by
  obtain ⟨e, he, hea, hh⟩ := ofRecords_skip (β := β) ha hs records
  obtain ⟨other, ho, hoa, hh'⟩ := ofRecords_skip (β := β) ha hs others
  have hf := hp.filterMap a.document?
  have hn : ((records.filterMap a.document?).map Document.id).Nodup :=
    hd.sublist (a.document?_ids records)
  rw [firsts_eq_self hn] at hh
  rw [firsts_eq_self ((hf.map Document.id).nodup_iff.1 hn)] at hh'
  refine ⟨e, other, he, ho, fun ranking text limit => ⟨_, hh.search_eq _ text limit, ?_⟩⟩
  rw [hh'.search_eq, hh.scan_perm hh' (hea.trans hoa.symm) hf]

theorem search_records_perm_foxes :
    let records : List Record := [
      .ofList [("id", .str "1"), ("text", .str "The quick red fox")] compare,
      .ofList [("id", .int 2), ("text", .str "red hen, red fox")] compare,
      .ofList [("text", .str "a fox")] compare,
      .ofList [("id", .str "3"), ("text", .bool true)] compare]
    ∃ a : Analyzer, Analyzer.ofConfig {} = .ok a ∧ ({} : Config).policy = .skip ∧
      (records.filterMap recordId?).Nodup ∧ records.Perm records.reverse ∧
      ∃ e other : Engine Unit, Engine.ofRecords records {} = .ok e ∧
        Engine.ofRecords records.reverse {} = .ok other ∧
        ∀ (ranking : Ranking Double) (text : String) (limit : Nat), ∃ hits,
          e.search ranking.scorer text limit = .ok hits ∧
          other.search ranking.scorer text limit = .ok hits := by
  intro records
  obtain ⟨a, ha, -⟩ : ∃ a : Analyzer, Analyzer.ofConfig {} = .ok a ∧ true = true :=
    Result.exists_of_any (p := fun _ => true) (by decide +kernel)
  have hd : (records.filterMap recordId?).Nodup := by decide +kernel
  have hp : records.Perm records.reverse := (List.reverse_perm records).symm
  exact ⟨a, ha, rfl, hd, hp, search_records_perm ha rfl hd hp⟩

end Engine

end Concordance

import Concordance.Engine.Snapshot
import Concordance.Proofs.Index.Contents
import Concordance.Proofs.Json.Values

namespace Concordance

def IsFinite (x : Float) : Prop := (Exact.ofFloat? x).isSome = true

theorem Posting.ofDraft?_shape (p : Posting) : Posting.ofDraft? p.toJson.shape = some p := by
  have hn : (Json.int p.frequency.toNat).shape.nat? 0x100000000 = some p.frequency.toNat :=
    Json.nat?_shape p.frequency.toNat_lt (by omega)
  have ht : (Json.str p.id).shape.text? = some p.id := rfl
  have hs : p.toJson.shape = .arr [(Json.str p.id).shape, (Json.int p.frequency.toNat).shape] := rfl
  simp only [hs, Posting.ofDraft?, ht, hn, Option.bind_eq_bind, Option.bind_some, Option.pure_def,
    UInt32.ofNat_toNat]

theorem CorpusStats.ofDraft?_shape {s : CorpusStats}
    (hl : ∀ (id : String) (n : Nat), s.lengths[id]? = some n → n < 2 ^ 64) (ht : s.total < 2 ^ 64) :
    CorpusStats.ofDraft? s.toJson.shape = some s := by
  have hn : (Json.ofNamed (fun n : Nat => .int n) s.lengths).shape.named? (·.count?) =
      some s.lengths := Json.named?_shape fun id n h => Json.count?_shape (hl id n h)
  have ht : (Json.int s.total).shape.count? = some s.total := Json.count?_shape ht
  have hf : Json.Fields.read? ["doc_lengths", "total_docs"] s.toJson.shape = some ⟨false,
      [some (Json.ofNamed (fun n : Nat => .int n) s.lengths).shape,
        some (Json.int s.total).shape]⟩ := rfl
  simp [CorpusStats.ofDraft?, hf, Json.Fields.need?, Json.Fields.at?, hn, ht]

theorem StopWords.ofDraft?_shape (s : StopWords) : StopWords.ofDraft? s.toJson.shape = some s := by
  have ht : s.toJson.shape.list? (·.text?) = some s.words.toList := Json.texts?_shape _
  rw [StopWords.ofDraft?, ht, Option.map_some, ofList_toList_words]

section Documents

/-- A record whose values are as reading gives them and whose doubles survive. -/
structure Record.Written (record : Record) : Prop where
  canonical : ∀ (field : String) (value : Json), record[field]? = some value → value.Canonical
  doubles : ∀ (field : String) (value : Json), record[field]? = some value →
    ∀ x ∈ value.doubles, ReadsBack x

def Record.Within (depth : Nat) (record : Record) : Prop :=
  ∀ (field : String) (value : Json), record[field]? = some value → value.height ≤ depth

theorem ofRecord_eq (record : Record) : Json.ofRecord record = Json.ofNamed id record := by
  simp [Json.ofRecord, Json.ofNamed]

variable {record : Record} {depth : Nat}

theorem Record.Within.record?_shape (h : record.Within depth) (hw : record.Written) :
    (Json.ofRecord record).shape.record? depth = some record := by
  rw [ofRecord_eq]
  refine Json.named?_shape fun field value hv => ?_
  rw [id, Json.json?_shape depth (hw.canonical field value hv) (hw.doubles field value hv),
    if_pos (h field value hv)]

theorem Record.record?_shape_eq_none (h : ¬ record.Within depth) (hw : record.Written) :
    (Json.ofRecord record).shape.record? depth = none := by
  simp only [Record.Within, not_forall] at h
  obtain ⟨field, value, hv, hd⟩ := h
  rw [ofRecord_eq]
  refine Json.named?_shape_eq_none hv ?_
  rw [id, Json.json?_shape depth (hw.canonical field value hv) (hw.doubles field value hv),
    if_neg hd]

end Documents

section Index

theorem ofNamed_postings (postings : Named (Array Posting)) :
    Json.ofNamed (fun ps : Array Posting => .arr (ps.toList.map Posting.toJson)) postings =
      Json.ofNamed (fun ps : List Posting => .arr (ps.map Posting.toJson))
        (postings.map fun _ ps => ps.toList) := by
  simp [Json.ofNamed]

structure Index.Fits (index : Index) : Prop where
  documents : index.documents.size < 2 ^ 64
  lengths : ∀ (id : String) (n : Nat), index.stats.lengths[id]? = some n → n < 2 ^ 64

variable {index : Index} {docs : List Document}

theorem Index.Holds.fits (h : index.Holds docs) (few : docs.length < 2 ^ 64)
    (short : ∀ d ∈ docs, d.tokens.length < 2 ^ 64) : index.Fits where
  documents := by rwa [h.size_documents]
  lengths id n hn := by
    rw [h.lengths] at hn
    obtain ⟨d, hd, rfl⟩ := Option.map_eq_some_iff.1 hn
    exact short d (List.mem_of_find?_eq_some hd)

theorem postings_shape (index : Index) : ∃ lists : Named (List Posting),
    (Json.ofNamed (fun ps : Array Posting => .arr (ps.toList.map Posting.toJson))
      index.postings).shape.named? (·.list? Posting.ofDraft?) = some lists ∧
    (lists.map fun _ ps => ps.toArray) = index.postings := by
  refine ⟨index.postings.map fun _ ps => ps.toList, ?_, ?_⟩
  · rw [ofNamed_postings]
    exact Json.named?_shape fun _ _ _ => Json.list?_shape fun p _ => p.ofDraft?_shape
  · refine Std.ExtTreeMap.ext_getElem? fun token => ?_
    rw [Std.ExtTreeMap.getElem?_map, Std.ExtTreeMap.getElem?_map]
    cases index.postings[token]? <;> rfl

theorem Index.Holds.docFreqs_shape (h : index.Holds docs) :
    (Json.ofNamed (fun n : Nat => .int n) index.docFreqs).shape.named? (·.count?) =
      some index.docFreqs := by
  refine Json.named?_shape fun token n hn => Json.count?_shape ?_
  rw [h.docFreqs] at hn
  obtain ⟨ps, -, rfl⟩ := Option.map_eq_some_iff.1 hn
  exact Nat.mod_lt _ (by omega)

theorem index_fields (index : Index) :
    Json.Fields.read? ["index", "doc_freqs", "documents", "stats"] index.toJson.shape = some ⟨false,
      [some (Json.ofNamed (fun ps : Array Posting => .arr (ps.toList.map Posting.toJson))
          index.postings).shape,
        some (Json.ofNamed (fun n : Nat => .int n) index.docFreqs).shape,
        some (Json.ofNamed .ofRecord index.documents).shape,
        some index.stats.toJson.shape]⟩ := rfl

def Index.Keeps (index : Index) (record : Record) : Prop :=
  ∃ id : String, index.documents[id]? = some record

theorem Index.Holds.ofDraft?_shape (h : index.Holds docs) (hf : index.Fits) {depth : Nat}
    (hw : ∀ record, index.Keeps record → record.Written)
    (hd : ∀ record, index.Keeps record → record.Within (depth - 3)) :
    Index.ofDraft? depth index.toJson.shape = some index := by
  obtain ⟨lists, hl, ha⟩ := postings_shape index
  have hr : (Json.ofNamed .ofRecord index.documents).shape.named? (·.record? (depth - 3)) =
      some index.documents :=
    Json.named?_shape fun id record hm =>
      (hd record ⟨id, hm⟩).record?_shape (hw record ⟨id, hm⟩)
  have hs : CorpusStats.ofDraft? index.stats.toJson.shape = some index.stats := by
    refine CorpusStats.ofDraft?_shape hf.lengths ?_
    rw [h.total]
    exact Nat.mod_lt _ (by omega)
  simp [Index.ofDraft?, index_fields, Json.Fields.need?, Json.Fields.at?, hl, ha,
    h.docFreqs_shape, hr, hs]

theorem Index.ofDraft?_shape_eq_none {depth : Nat} {record : Record} (hk : index.Keeps record)
    (hw : record.Written) (hd : ¬ record.Within (depth - 3)) :
    Index.ofDraft? depth index.toJson.shape = none := by
  obtain ⟨id, hm⟩ := hk
  have hr : (Json.ofNamed .ofRecord index.documents).shape.named? (·.record? (depth - 3)) = none :=
    Json.named?_shape_eq_none hm (Record.record?_shape_eq_none hd hw)
  simp [Index.ofDraft?, index_fields, Json.Fields.need?, Json.Fields.at?, hr]

end Index

section Config

theorem float?_shape_eq_none {x : Float} (h : ¬ IsFinite x) :
    (Json.double x).shape.float? = none := by
  have hx : Exact.ofFloat? x = none := by simpa [IsFinite] using h
  have hj : jsonDouble x = ['n', 'u', 'l', 'l'] := by simp [jsonDouble, hx]
  have hr : Numeral.read? ['n', 'u', 'l', 'l'] = none := rfl
  simp [Json.shape, hj, hr, Json.Draft.float?]

theorem float?_shape {x : Float} (h : IsFinite x) (hb : ReadsBack x) :
    (Json.double x).shape.float? = some x := by
  obtain ⟨e, he⟩ := Option.isSome_iff_exists.1 h
  obtain ⟨n, hp, hm, hs⟩ := jsonDouble_spelling he
  have hr := Numeral.read?_spelling hp
  rw [hs] at hr
  rw [ReadsBack, hr, Option.bind_some] at hb
  simp [Json.shape, hr, Json.Draft.float?, hm.int?, hb]

theorem nullable_count (n : Option Nat) (h : ∀ k, n = some k → k < 2 ^ 64) :
    Json.Fields.nullable? (·.count?) (Json.ofCount? n).shape = some n := by
  cases n with
  | none => rfl
  | some k =>
    have hk : (Json.int k).shape.count? = some k := Json.count?_shape (h k rfl)
    simp only [Json.ofCount?]
    show ((Json.int k).shape.count?).map some = _
    rw [hk]
    rfl

theorem config_fields (s : SavedConfig) :
    Json.Fields.read? ["stopwords", "field_weights", "ngram", "fields"] s.toJson.shape =
      some ⟨false, [some s.stopWords.toJson.shape, some (Json.ofNamed .double s.weights).shape,
        some (Json.ofCount? s.ngram).shape,
        s.fields.map fun names => (Json.arr (names.map .str)).shape]⟩ := by
  obtain ⟨stopWords, weights, ngram, fields⟩ := s
  cases fields <;> rfl

theorem SavedConfig.ofDraft?_shape {s : SavedConfig}
    (hw : ∀ (field : String) (weight : Float), s.weights[field]? = some weight →
      IsFinite weight ∧ ReadsBack weight)
    (hn : ∀ n, s.ngram = some n → n < 2 ^ 64) : SavedConfig.ofDraft? s.toJson.shape = some s := by
  have hweights : (Json.ofNamed .double s.weights).shape.named? (·.float?) = some s.weights :=
    Json.named?_shape fun field weight h => float?_shape (hw field weight h).1 (hw field weight h).2
  have hngram := nullable_count s.ngram hn
  obtain ⟨stopWords, weights, ngram, fields⟩ := s
  cases fields with
  | none =>
    simp [SavedConfig.ofDraft?, config_fields, Json.Fields.need?, Json.Fields.mayBeNull?,
      Json.Fields.mayBeAbsent?, Json.Fields.at?, StopWords.ofDraft?_shape, hweights, hngram]
  | some names =>
    have hnames : Json.Fields.nullable? (·.list? (·.text?)) (Json.arr (names.map .str)).shape =
        some (some names) := by
      show ((Json.arr (names.map .str)).shape.list? (·.text?)).map some = _
      rw [Json.texts?_shape]
      rfl
    simp [SavedConfig.ofDraft?, config_fields, Json.Fields.need?, Json.Fields.mayBeNull?,
      Json.Fields.mayBeAbsent?, Json.Fields.at?, StopWords.ofDraft?_shape, hweights, hngram, hnames]

theorem SavedConfig.ofDraft?_shape_eq_none {s : SavedConfig} {field : String} {weight : Float}
    (hw : s.weights[field]? = some weight) (hn : ¬ IsFinite weight) :
    SavedConfig.ofDraft? s.toJson.shape = none := by
  have hweights : (Json.ofNamed .double s.weights).shape.named? (·.float?) = none :=
    Json.named?_shape_eq_none hw (float?_shape_eq_none hn)
  simp [SavedConfig.ofDraft?, config_fields, Json.Fields.need?, Json.Fields.at?, hweights]

end Config

section Snapshot

theorem snapshot_fields (s : Snapshot) :
    Json.Fields.read? ["index", "config", "doc_tokens"] s.toJson.shape = some ⟨false,
      [some s.index.toJson.shape, some s.config.toJson.shape,
        s.history.map fun history => (Json.ofNamed
          (fun tokens : List String => .arr (tokens.map .str)) history).shape]⟩ := by
  obtain ⟨index, config, history⟩ := s
  cases history <;> rfl

theorem Snapshot.ofDraft?_shape {s : Snapshot}
    (hi : Index.ofDraft? (Json.depthLimit - 1) s.index.toJson.shape = some s.index)
    (hc : SavedConfig.ofDraft? s.config.toJson.shape = some s.config) :
    Snapshot.ofDraft? s.toJson.shape = some s := by
  obtain ⟨index, config, history⟩ := s
  cases history with
  | none =>
    simp [Snapshot.ofDraft?, snapshot_fields, Json.Fields.need?, Json.Fields.mayBeAbsent?,
      Json.Fields.at?, hi, hc]
  | some history =>
    have hh : Json.Fields.nullable? (·.named? (·.list? (·.text?))) (Json.ofNamed
        (fun tokens : List String => .arr (tokens.map .str)) history).shape =
          some (some history) := by
      have hn : (Json.ofNamed (fun tokens : List String => .arr (tokens.map .str))
          history).shape.named? (·.list? (·.text?)) = some history :=
        Json.named?_shape fun _ tokens _ => Json.texts?_shape tokens
      show ((Json.ofNamed _ history).shape.named? _).map some = _
      rw [hn]
      rfl
    simp [Snapshot.ofDraft?, snapshot_fields, Json.Fields.need?, Json.Fields.mayBeAbsent?,
      Json.Fields.at?, hi, hc, hh]

theorem Snapshot.ofDraft?_shape_eq_none {s : Snapshot}
    (h : Index.ofDraft? (Json.depthLimit - 1) s.index.toJson.shape = none ∨
      SavedConfig.ofDraft? s.config.toJson.shape = none) :
    Snapshot.ofDraft? s.toJson.shape = none := by
  rcases h with h | h <;>
    simp [Snapshot.ofDraft?, snapshot_fields, Json.Fields.need?, Json.Fields.at?, h]

theorem Snapshot.decode?_encode (s : Snapshot) :
    Snapshot.decode? s.encode = Snapshot.ofDraft? s.toJson.shape := by
  rw [decode?, encode, Json.ofBytes?_encodeText_compact, Option.bind_some]

end Snapshot

end Concordance

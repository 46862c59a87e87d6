import Concordance.Proofs.Engine.Restore
import Concordance.Proofs.Engine.SnapshotText
import Concordance.Records.File
import Concordance.Storage.Memory

/-!
Saving and loading. What has been saved can be loaded exactly if all weights are finite and the
values of the stored records leave room for the four levels that a snapshot puts around them. The
check of settings and the reading of records ask for neither.
-/

namespace Concordance

variable {β σ : Type}

def Storage.Faithful (storage : Storage (StateM σ)) : Prop :=
  ∀ (key : String) (bytes : Bytes) (s : σ), ((storage.save key bytes).run s).1 = .ok () →
    ((storage.load key).run ((storage.save key bytes).run s).2).1 = .ok bytes

theorem Memory.storage_faithful : Memory.storage.Faithful := by
  intro key bytes s _
  show (s.save key bytes).load key = .ok bytes
  simp [Memory.save, Memory.load]

/-- A record read from a text: the text is the record, or an array that has it among its items. -/
def Record.FromText (record : Record) : Prop :=
  ∃ (text : String) (value : Json), Json.read? text = some value ∧
    (value.record? = some record ∨
      ∃ items : List Json, value = .arr items ∧ ∃ item ∈ items, item.record? = some record)

theorem fromText_of_readLine {number : Nat} {text : String} {record : Record}
    (h : readLine number text = .ok record) : record.FromText := by
  unfold readLine at h
  split at h
  · cases h
  next value hv =>
    split at h
    next r hr =>
      cases h
      exact ⟨text, value, hv, .inl hr⟩
    next => cases h

theorem fromText_of_readLines {lines : List (List UInt8)} {count : Nat} {record : Record}
    (h : .ok record ∈ readLines count lines) : record.FromText := by
  induction lines generalizing count with
  | nil => cases h
  | cons line rest ih =>
    rw [readLines] at h
    split at h
    · rcases List.mem_cons.1 h with h | h
      · cases h
      · exact ih h
    · split at h
      · exact ih h
      · rcases List.mem_cons.1 h with h | h
        · exact fromText_of_readLine h.symm
        · exact ih h

theorem fromText_of_readRecords {path : String} {bytes : List UInt8} {records : List Record}
    (h : readRecords path bytes = .ok records) : ∀ record ∈ records, record.FromText := by
  intro record hm
  unfold readRecords at h
  split at h
  · have hi : .ok record ∈ recordLines bytes := by
      rw [mapM_id_eq_ok.1 h]
      exact List.mem_map_of_mem hm
    exact fromText_of_readLines hi
  · unfold readArray at h
    split at h
    · cases h
    next items hi =>
      cases h
      obtain ⟨text, -, hread⟩ := Option.bind_eq_some_iff.1 hi
      exact ⟨text, .arr items, hread, .inr ⟨items, rfl, List.mem_filterMap.1 hm⟩⟩
    next => cases h

theorem Record.Written.readRecords {record : Record} (hw : record.Written)
    (hd : record.Within (Json.depthLimit - 2)) {path : String} (hp : isLineFile path = false) :
    Concordance.readRecords path (encodeText (Json.arr [.obj record.toList]).compact) =
      .ok [record] := by
  have hv : ∀ member ∈ record.toList, record[member.1]? = some member.2 := fun _ hm =>
    Std.ExtTreeMap.mem_toList_iff_getElem?_eq_some.1 hm
  have hcanonical : (Json.obj record.toList).Canonical :=
    .obj fun member hm => hw.canonical member.1 member.2 (hv member hm)
  have hdoubles : ∀ x ∈ (Json.arr [.obj record.toList]).doubles, ReadsBack x := by
    intro x hx
    have hx : x ∈ Json.membersDoubles record.toList := by
      simpa [Json.doubles, Json.itemsDoubles] using hx
    obtain ⟨member, hm, hx⟩ := Json.exists_of_mem_membersDoubles hx
    exact hw.doubles member.1 member.2 (hv member hm) x hx
  have hheight : (Json.arr [.obj record.toList]).height ≤ Json.depthLimit := by
    have hm := Json.membersHeight_le fun member hm => hd member.1 member.2 (hv member hm)
    simp only [Json.height, Json.itemsHeight, Json.depthLimit] at hm ⊢
    omega
  have hread := Json.read?_compact (.arr (by simpa using hcanonical)) hdoubles hheight
  rw [Concordance.readRecords, if_neg (by simp [hp]), readArray, decodeText?_encodeText,
    Option.bind_some, hread]
  simp [Json.record?, ofList_toList]

theorem Json.Canonical.record {value : Json} (h : value.Canonical) {record : Record}
    (hr : value.record? = some record) :
    ∀ (field : String) (v : Json), record[field]? = some v → v.Canonical := by
  cases h with
  | @obj members hm =>
    cases hr
    intro field v hv
    rw [ofList_toList] at hv
    exact hm (field, v) (Std.ExtTreeMap.mem_toList_iff_getElem?_eq_some.2 hv)
  | _ => cases hr

theorem Record.FromText.canonical {record : Record} (h : record.FromText) :
    ∀ (field : String) (value : Json), record[field]? = some value → value.Canonical := by
  obtain ⟨text, value, ht, hr⟩ := h
  obtain ⟨d, -, hd⟩ := Option.bind_eq_some_iff.1 ht
  have hc := Json.canonical_of_json? d hd
  rcases hr with hr | ⟨items, rfl, item, hi, hr⟩
  · exact hc.record hr
  · cases hc with
    | arr hc => exact (hc item hi).record hr

namespace Engine

structure Fits (e : Engine β) : Prop where
  index : e.index.Fits
  ngram : ∀ n, e.config.ngram = some n → n < 2 ^ 64

/-- Every finite weight and every double of a stored record is read back from its text. -/
structure DoublesSurvive (e : Engine β) : Prop where
  weights : ∀ (field : String) (weight : Float), e.config.weights[field]? = some weight →
    IsFinite weight → ReadsBack weight
  records : ∀ record, e.index.Keeps record → ∀ (field : String) (value : Json),
    record[field]? = some value → ∀ x ∈ value.doubles, ReadsBack x

/-- An engine whose snapshot is read back: its weights are finite, and the values of its records
nest four levels less than a text may. -/
structure Storable (e : Engine β) : Prop where
  weights : ∀ (field : String) (weight : Float), e.config.weights[field]? = some weight →
    IsFinite weight
  records : ∀ record, e.index.Keeps record → record.Within (Json.depthLimit - 4)

section Decode

variable {e : Engine β} {docs : List Document}

theorem Storable.decode_encode (hs : e.Storable) (h : e.Holds docs)
    (hw : ∀ record, e.index.Keeps record → record.Written) (hf : e.Fits) (hd : e.DoublesSurvive) :
    Engine.decode e.snapshot.encode = .ok (e.withPolicy .skip) := by
  obtain ⟨c, -, hc, hi, -⟩ := h.view
  have hindex : Index.ofDraft? (Json.depthLimit - 1) e.index.toJson.shape = some e.index := by
    have hh := hc.index
    rw [← hi] at hh
    exact hh.ofDraft?_shape hf.index hw hs.records
  have hconfig : SavedConfig.ofDraft? (SavedConfig.ofConfig e.config).toJson.shape =
      some (SavedConfig.ofConfig e.config) :=
    SavedConfig.ofDraft?_shape
      (fun field weight h =>
        have hfin : IsFinite weight := hs.weights field weight h
        ⟨hfin, hd.weights field weight h hfin⟩)
      hf.ngram
  have hsnap : Snapshot.ofDraft? e.snapshot.toJson.shape = some e.snapshot :=
    Snapshot.ofDraft?_shape hindex hconfig
  rw [decode, Snapshot.decode?_encode, hsnap]
  exact h.ofSnapshot hf.index.documents

theorem decode_encode_eq_error (hs : ¬ e.Storable)
    (hw : ∀ record, e.index.Keeps record → record.Written) :
    Engine.decode (β := β) e.snapshot.encode = .error .json := by
  have hn : Snapshot.ofDraft? e.snapshot.toJson.shape = none := by
    refine Snapshot.ofDraft?_shape_eq_none ?_
    by_cases hr : ∀ record, e.index.Keeps record → record.Within (Json.depthLimit - 4)
    · right
      have hweights : ¬ ∀ (field : String) (weight : Float),
          e.config.weights[field]? = some weight → IsFinite weight := fun hfin => hs ⟨hfin, hr⟩
      simp only [not_forall] at hweights
      obtain ⟨field, weight, hm, hfin⟩ := hweights
      exact SavedConfig.ofDraft?_shape_eq_none hm hfin
    · left
      simp only [not_forall] at hr
      obtain ⟨record, hk, hd⟩ := hr
      exact Index.ofDraft?_shape_eq_none hk (hw record hk) hd
  rw [decode, Snapshot.decode?_encode, hn]

end Decode

theorem Holds.fits {e : Engine β} {docs : List Document} (h : e.Holds docs)
    (few : e.index.documents.size < 2 ^ 64)
    (short : ∀ id ∈ e.index.documents.keys, (e.tokens id).length < 2 ^ 64) : e.index.Fits := by
  refine h.holds_index.fits (by rwa [← h.holds_index.size_documents]) fun d hd => ?_
  have hk : d.id ∈ e.index.documents.keys :=
    h.holds_index.keys_perm.mem_iff.2 (List.mem_map_of_mem hd)
  have ht := short d.id hk
  rwa [h.tokens, (documentOf?_eq_some h.holds_index.distinct).2 ⟨hd, rfl⟩] at ht

theorem mem_of_keeps {records : List Record} {config : Config} {e : Engine β}
    (h : Engine.ofRecords records config = .ok e) {record : Record} (hk : e.index.Keeps record) :
    record ∈ records := by
  obtain ⟨-, docs, hd, hm⟩ := ofRecords_holds h
  obtain ⟨c, -, hc, hi, -⟩ := hd.view
  obtain ⟨id, hid⟩ := hk
  rw [hi, hc.index.documents] at hid
  obtain ⟨d, hf, rfl⟩ := Option.map_eq_some_iff.1 hid
  obtain ⟨r, hr, hmake⟩ := hm d (List.mem_of_find?_eq_some hf)
  rw [hmake.metadata]
  exact hr

theorem load_eq_decode {storage : Storage (StateM σ)} (hs : storage.Faithful) {e : Engine β}
    {key : String} {s : σ} (saved : ((e.save storage key).run s).1 = .ok ()) :
    ((Engine.load (β := β) storage key).run ((e.save storage key).run s).2).1 =
      Engine.decode e.snapshot.encode := by
  show (((storage.load key).run ((storage.save key e.snapshot.encode).run s).2).1).bind _ = _
  rw [hs key e.snapshot.encode s saved]
  rfl

/-- An engine built from records that have been read, saved to a store that keeps what it takes, is
loaded with the same answers to every search if it is storable. Otherwise loading fails. -/
theorem load_saved {α : Type} [Scalar α] {storage : Storage (StateM σ)} (hs : storage.Faithful)
    {records : List Record} {config : Config} {e : Engine β}
    (hr : ∀ record ∈ records, record.FromText)
    (he : Engine.ofRecords records config = .ok e) (hf : e.Fits) (hd : e.DoublesSurvive)
    (key : String) (s : σ) (saved : ((e.save storage key).run s).1 = .ok ()) :
    let loaded : Result (Engine β) :=
      ((Engine.load storage key).run ((e.save storage key).run s).2).1
    (e.Storable → ∃ restored : Engine β, loaded = .ok restored ∧
      ∀ (score : Scorer α) (text : String) (limit : Nat),
        restored.search score text limit = e.search score text limit) ∧
    (¬ e.Storable → loaded = .error .json) := by
  intro loaded
  obtain ⟨-, docs, hdocs, -⟩ := ofRecords_holds he
  have hw : ∀ record, e.index.Keeps record → record.Written := fun record hk =>
    ⟨(hr record (mem_of_keeps he hk)).canonical, hd.records record hk⟩
  have hl : loaded = Engine.decode e.snapshot.encode := load_eq_decode hs saved
  rw [hl]
  refine ⟨fun hs => ⟨e.withPolicy .skip, hs.decode_encode hdocs hw hf hd, fun _ _ _ => rfl⟩, ?_⟩
  exact fun hs => decode_encode_eq_error hs hw

section Fox

private def fox : Record :=
  .ofList [("id", Json.str "1"), ("text", Json.str "The quick red fox")] compare

private def weighing (weight : Float) : Config := { weights := .ofList [("text", weight)] compare }

private theorem fox_values {field : String} {value : Json} (h : fox[field]? = some value) :
    ∃ s : String, value = .str s := by
  have hm := mem_of_getElem?_ofList h
  simp only [List.mem_cons, Prod.mk.injEq, List.not_mem_nil, or_false] at hm
  rcases hm with ⟨-, rfl⟩ | ⟨-, rfl⟩ <;> exact ⟨_, rfl⟩

private theorem fox_written : fox.Written where
  canonical field value h := by
    obtain ⟨s, rfl⟩ := fox_values h
    exact .str s
  doubles field value h := by
    obtain ⟨s, rfl⟩ := fox_values h
    simp [Json.doubles]

private theorem fox_within (depth : Nat) : fox.Within depth := by
  intro field value hv
  obtain ⟨s, rfl⟩ := fox_values hv
  simp [Json.height]

theorem load_saved_fox : ∃ e restored : Engine Unit,
    readRecords "foxes.json" (encodeText (Json.arr [.obj fox.toList]).compact) = .ok [fox] ∧
      Engine.ofRecords [fox] (weighing 2.5) = .ok e ∧ e.Fits ∧ e.DoublesSurvive ∧ e.Storable ∧
      ((Engine.load Memory.storage "k").run ((e.save Memory.storage "k").run {}).2).1 =
        .ok restored ∧
      ∀ (score : Scorer Double) (text : String) (limit : Nat),
        restored.search score text limit = e.search score text limit := by
  obtain ⟨e, he, hok⟩ : ∃ e : Engine Unit, Engine.ofRecords [fox] (weighing 2.5) = .ok e ∧
      decide (e.index.documents.size < 2 ^ 64 ∧
        ∀ id ∈ e.index.documents.keys, (e.tokens id).length < 2 ^ 64) = true :=
    Result.exists_of_any (by decide +kernel)
  obtain ⟨few, short⟩ := of_decide_eq_true hok
  obtain ⟨hc, docs, hdocs, -⟩ := ofRecords_holds he
  have hweight : IsFinite 2.5 ∧ ReadsBack 2.5 :=
    ⟨by unfold IsFinite; decide +kernel, by unfold ReadsBack; decide +kernel⟩
  have hw : ∀ (field : String) (weight : Float), e.config.weights[field]? = some weight →
      weight = 2.5 := by
    intro field weight h
    rw [hc] at h
    have hm := List.mem_singleton.1 (mem_of_getElem?_ofList h)
    exact congrArg Prod.snd hm
  have hkeep : ∀ record, e.index.Keeps record → record = fox := fun record hk => by
    simpa using mem_of_keeps he hk
  have hfits : e.Fits := ⟨hdocs.fits few short, fun n hn => by
    rw [hc] at hn
    cases hn⟩
  have hsurvive : e.DoublesSurvive :=
    ⟨fun field weight h _ => by rw [hw field weight h]; exact hweight.2,
      fun record hk => by rw [hkeep record hk]; exact fox_written.doubles⟩
  have hstorable : e.Storable :=
    ⟨fun field weight h => by rw [hw field weight h]; exact hweight.1,
      fun record hk => by rw [hkeep record hk]; exact fox_within _⟩
  have hread : readRecords "foxes.json" (encodeText (Json.arr [.obj fox.toList]).compact) =
      .ok [fox] := fox_written.readRecords (fox_within _) (by decide +kernel)
  obtain ⟨restored, hl, ha⟩ :=
    (load_saved (α := Double) Memory.storage_faithful (fromText_of_readRecords hread) he hfits
      hsurvive "k" {} rfl).1 hstorable
  exact ⟨e, restored, hread, he, hfits, hsurvive, hstorable, hl, ha⟩

/-- An engine of one record that is no good for storing is saved, and then cannot be loaded. -/
private theorem load_eq_error {record : Record} {config : Config} {e : Engine Unit}
    (he : Engine.ofRecords [record] config = .ok e) (hw : record.Written) (hs : ¬ e.Storable) :
    ((e.save Memory.storage "k").run {}).1 = .ok () ∧
      ((Engine.load (β := Unit) Memory.storage "k").run
        ((e.save Memory.storage "k").run {}).2).1 = .error .json := by
  have hkept : ∀ kept, e.index.Keeps kept → kept.Written := fun kept hk => by
    obtain rfl : kept = record := by simpa using mem_of_keeps he hk
    exact hw
  refine ⟨rfl, ?_⟩
  rw [load_eq_decode Memory.storage_faithful rfl]
  exact decode_encode_eq_error hs hkept

/-- A weight that is no number passes the check of settings, and what is saved then cannot be
loaded. -/
theorem load_nan_weight : ∃ e : Engine Unit, Engine.ofRecords [fox] (weighing (0 / 0)) = .ok e ∧
    ((e.save Memory.storage "k").run {}).1 = .ok () ∧
    ((Engine.load (β := Unit) Memory.storage "k").run ((e.save Memory.storage "k").run {}).2).1 =
      .error .json := by
  obtain ⟨e, he, -⟩ : ∃ e : Engine Unit, Engine.ofRecords [fox] (weighing (0 / 0)) = .ok e ∧
      true = true := Result.exists_of_any (by decide +kernel)
  have hc : e.config = weighing (0 / 0) := (ofRecords_holds he).1
  have hnan : ¬ IsFinite (0 / 0) := by
    unfold IsFinite
    decide +kernel
  have hstorable : ¬ e.Storable := by
    intro hs
    refine hnan (hs.weights "text" (0 / 0) ?_)
    rw [hc]
    rfl
  exact ⟨e, he, load_eq_error he fox_written hstorable⟩

private def nested : Nat → Json
  | 0 => .arr []
  | count + 1 => .arr [nested count]

private theorem nested_canonical (count : Nat) : (nested count).Canonical := by
  induction count with
  | zero => exact .arr (by simp)
  | succ count ih => exact .arr (by simpa using ih)

private theorem doubles_nested (count : Nat) : (nested count).doubles = [] := by
  induction count with
  | zero => rfl
  | succ count ih => simp [nested, Json.doubles, Json.itemsDoubles, ih]

private theorem height_nested (count : Nat) : (nested count).height = count + 1 := by
  induction count with
  | zero => rfl
  | succ count ih => simp [nested, Json.height, Json.itemsHeight, ih]

private def deep : Record :=
  .ofList [("id", .str "1"), ("rest", nested 123), ("text", .str "fox")] compare

private theorem deep_values {field : String} {value : Json} (h : deep[field]? = some value) :
    (∃ s : String, value = .str s) ∨ value = nested 123 := by
  have hm := mem_of_getElem?_ofList h
  simp only [List.mem_cons, Prod.mk.injEq, List.not_mem_nil, or_false] at hm
  rcases hm with ⟨-, rfl⟩ | ⟨-, rfl⟩ | ⟨-, rfl⟩
  · exact .inl ⟨_, rfl⟩
  · exact .inr rfl
  · exact .inl ⟨_, rfl⟩

private theorem deep_written : deep.Written where
  canonical field value h := by
    rcases deep_values h with ⟨s, rfl⟩ | rfl
    · exact .str s
    · exact nested_canonical 123
  doubles field value h := by
    rcases deep_values h with ⟨s, rfl⟩ | rfl
    · simp [Json.doubles]
    · simp [doubles_nested]

private theorem deep_fromText : deep.FromText := by
  have hd : deep.Within (Json.depthLimit - 2) := by
    intro field value hv
    rcases deep_values hv with ⟨s, rfl⟩ | rfl
    · simp [Json.height]
    · simp [height_nested, Json.depthLimit]
  have hp : isLineFile "deep.json" = false := by decide +kernel
  exact fromText_of_readRecords (deep_written.readRecords hd hp) deep (List.mem_singleton_self deep)

/-- Neither can a record with a value nested as deep as its text allows, under the settings that are
taken when none are given. -/
theorem load_deep_record : deep.FromText ∧ ∃ e : Engine Unit, Engine.ofRecords [deep] {} = .ok e ∧
    ((e.save Memory.storage "k").run {}).1 = .ok () ∧
    ((Engine.load (β := Unit) Memory.storage "k").run ((e.save Memory.storage "k").run {}).2).1 =
      .error .json := by
  obtain ⟨e, he, hok⟩ : ∃ e : Engine Unit, Engine.ofRecords [deep] {} = .ok e ∧
      (e.index.documents["1"]?).isSome = true := Result.exists_of_any (by decide +kernel)
  obtain ⟨kept, hk⟩ := Option.isSome_iff_exists.1 hok
  obtain rfl : kept = deep := by simpa using mem_of_keeps he ⟨"1", hk⟩
  have hstorable : ¬ e.Storable := by
    intro hs
    have hh := hs.records deep ⟨"1", hk⟩ "rest" (nested 123) rfl
    simp [height_nested, Json.depthLimit] at hh
  exact ⟨deep_fromText, e, he, load_eq_error he deep_written hstorable⟩

end Fox

end Engine

end Concordance

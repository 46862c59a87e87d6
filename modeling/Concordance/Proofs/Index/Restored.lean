import Concordance.Proofs.Index.Contents

/-!
Indexes that come from outside.  Restoring compares each postings list with the document frequency
of its token and with the document lengths, and nothing else.  Whatever it passes over stays in the
index through every later addition, so the laws of an index hold from then on exactly if they held
at first.
-/

namespace Concordance

namespace Index

section Restore

variable {index restored : Index}

theorem fault?_eq_none {token : String} {postings : Array Posting} :
    index.fault? token postings = none ↔
      index.docFreq token = postings.size ∧ ∀ p ∈ postings, p.id ∈ index.stats.lengths := by
  unfold fault?
  by_cases hd : index.docFreq token = postings.size
  · simp [hd, Std.ExtTreeMap.contains_iff_mem]
  · simp [hd]

theorem postingsOf_of_not_mem {token : String} (h : token ∉ index.postings) :
    index.postingsOf token = #[] := by
  rw [postingsOf, Std.ExtTreeMap.getD_eq_fallback h]

theorem postings_eq_some {token : String} {postings : Array Posting} :
    index.postings[token]? = some postings ↔
      token ∈ index.postings ∧ index.postingsOf token = postings := by
  rw [Std.ExtTreeMap.mem_iff_isSome_getElem?, postingsOf, Std.ExtTreeMap.getD_eq_getD_getElem?]
  cases index.postings[token]? <;> simp

def Located (index : Index) : Prop :=
  ∀ token, ∀ p ∈ index.postingsOf token, p.id ∈ index.stats.lengths

/-- An index is restored as it is, if it is restored at all. -/
theorem restore_eq_ok : index.restore = .ok restored ↔
    restored = index ∧
      (∀ token ∈ index.postings, index.docFreq token = (index.postingsOf token).size) ∧
      index.Located := by
  have hf : (∀ p ∈ index.postings.toList, index.fault? p.1 p.2 = none) ↔
      (∀ token ∈ index.postings, index.docFreq token = (index.postingsOf token).size) ∧
        index.Located := by
    simp only [Prod.forall, fault?_eq_none, Std.ExtTreeMap.mem_toList_iff_getElem?_eq_some,
      postings_eq_some]
    constructor
    · intro h
      refine ⟨fun token hm => (h token _ ⟨hm, rfl⟩).1, fun token p hp => ?_⟩
      by_cases hm : token ∈ index.postings
      · exact (h token _ ⟨hm, rfl⟩).2 p hp
      · simp [postingsOf_of_not_mem hm] at hp
    · rintro ⟨hd, hl⟩ token postings ⟨hm, rfl⟩
      exact ⟨hd token hm, hl token⟩
  rw [← hf, restore]
  split
  next fault h =>
    refine ⟨nofun, fun ⟨_, hn⟩ => ?_⟩
    cases h.symm.trans (List.findSome?_eq_none_iff.2 hn)
  next h =>
    have hn := List.findSome?_eq_none_iff.1 h
    exact ⟨fun he => ⟨(Except.ok.inj he).symm, hn⟩, fun ⟨he, _⟩ => by rw [he]⟩

end Restore

section Insert

variable (index : Index) (d : Document) (token : String)

theorem postingsOf_insert :
    (index.insert d.id d.tokens d.metadata).postingsOf token =
      if token ∈ d.tokens then (index.postingsOf token).push ⟨d.id, tally d.tokens token⟩
      else index.postingsOf token := by
  simp only [postingsOf, Std.ExtTreeMap.getD_eq_getD_getElem?, insert_postings]
  split <;> rfl

theorem docFreq_insert :
    (index.insert d.id d.tokens d.metadata).docFreq token =
      if token ∈ d.tokens then wordCount (index.docFreq token + 1) else index.docFreq token := by
  simp only [docFreq, Std.ExtTreeMap.getD_eq_getD_getElem?, insert_docFreqs]
  split <;> rfl

theorem hasDocument_insert (id : String) :
    (index.insert d.id d.tokens d.metadata).hasDocument id = true ↔
      d.id = id ∨ index.hasDocument id = true := by
  rw [hasDocument, insert_documents]
  simp [hasDocument]

theorem insert_lengths :
    (index.insert d.id d.tokens d.metadata).stats.lengths =
      index.stats.lengths.insert d.id d.tokens.length := by
  rw [insert_stats]
  rfl

theorem totalDocs_insert :
    (index.insert d.id d.tokens d.metadata).totalDocs = wordCount (index.totalDocs + 1) := by
  rw [totalDocs, insert_stats]
  rfl

theorem contains_insert (id : String) :
    (index.insert d.id d.tokens d.metadata).contains id token = true ↔
      index.contains id token = true ∨ d.id = id ∧ token ∈ d.tokens := by
  unfold contains
  rw [postingsOf_insert]
  by_cases h : token ∈ d.tokens <;> simp [h]

end Insert

def offer (index : Index) (d : Document) : Index :=
  match index.add d.id d.tokens d.metadata with
  | .ok grown => grown
  | .error _ => index

def offerAll (index : Index) (docs : List Document) : Index := docs.foldl offer index

theorem offer_eq (index : Index) (d : Document) :
    index.offer d =
      if index.hasDocument d.id = true then index else index.insert d.id d.tokens d.metadata := by
  unfold offer add
  by_cases h : index.hasDocument d.id = true <;> simp [h]

/-- What every addition of a new document keeps is kept by any number of additions. -/
theorem offerAll_induction {P : Index → Prop}
    (step : ∀ (index : Index) (d : Document), ¬ index.hasDocument d.id = true → P index →
      P (index.insert d.id d.tokens d.metadata))
    {index : Index} (h : P index) (docs : List Document) : P (index.offerAll docs) := by
  induction docs generalizing index with
  | nil => exact h
  | cons d docs ih =>
    refine ih ?_
    rw [offer_eq]
    split
    · exact h
    next hd => exact step index d hd h

/-- Of documents with the same identifier the first is kept. -/
theorem Holds.offerAll {index : Index} {kept : List Document} (h : index.Holds kept)
    (docs : List Document) : ∃ held, (index.offerAll docs).Holds held ∧
      ∀ id, documentOf? held id = documentOf? (kept ++ docs) id := by
  induction docs generalizing index kept with
  | nil => exact ⟨kept, h, fun id => by rw [List.append_nil]⟩
  | cons d docs ih =>
    rw [Index.offerAll, List.foldl_cons, offer_eq]
    split
    next hd =>
      obtain ⟨held, hh, hs⟩ := ih h
      refine ⟨held, hh, fun id => ?_⟩
      rw [hs, documentOf?, documentOf?, List.find?_append, List.find?_append]
      by_cases he : d.id = id
      · have hk : (kept.find? (·.id == id)).isSome = true := by
          simpa [← he] using (h.hasDocument d.id).1 hd
        obtain ⟨first, hf⟩ := Option.isSome_iff_exists.1 hk
        rw [hf, Option.some_or, Option.some_or]
      · rw [List.find?_cons_of_neg (by simpa using he)]
    next hd =>
      obtain ⟨held, hh, hs⟩ := ih (h.insert d (mt (h.hasDocument d.id).2 hd))
      exact ⟨held, hh, fun id => by rw [hs, List.append_assoc, List.singleton_append]⟩

theorem Located.insert {index : Index} (h : index.Located) (d : Document) :
    (index.insert d.id d.tokens d.metadata).Located := by
  intro token p hp
  rw [insert_lengths, Std.ExtTreeMap.mem_insert]
  rw [postingsOf_insert] at hp
  split at hp
  · rcases Array.mem_push.1 hp with hp | rfl
    · exact .inr (h token p hp)
    · exact .inl (by simp)
  · exact .inr (h token p hp)

theorem Located.offerAll {index : Index} (h : index.Located) (docs : List Document) :
    (index.offerAll docs).Located :=
  offerAll_induction (fun _ d _ h => h.insert d) h docs

section Frequencies

/-- The document frequency of a token without a postings list. -/
def strayFreq (index : Index) (token : String) : Nat :=
  if token ∈ index.postings then 0 else index.docFreq token

/-- Document frequencies that count postings, for each token from a start of its own. -/
def CountsFrom (index : Index) (start : String → Nat) : Prop :=
  ∀ token, index.docFreq token = wordCount (start token + (index.postingsOf token).size)

variable {index restored : Index} {start : String → Nat}

theorem strayFreq_eq_zero {token : String} :
    index.strayFreq token = 0 ↔ token ∈ index.postings ∨ index.docFreq token = 0 := by
  by_cases h : token ∈ index.postings <;> simp [strayFreq, h]

theorem CountsFrom.offerAll (h : index.CountsFrom start) (docs : List Document) :
    (index.offerAll docs).CountsFrom start := by
  refine offerAll_induction (P := (CountsFrom · start)) (fun index d _ h token => ?_) h docs
  rw [docFreq_insert, postingsOf_insert, h token]
  by_cases ht : token ∈ d.tokens
  · simp [ht, wordCount, Nat.add_assoc]
  · simp [ht]

theorem countsFrom_strayFreq (h : index.restore = .ok restored)
    (words : ∀ token, index.docFreq token < 2 ^ 64) : index.CountsFrom index.strayFreq := by
  intro token
  obtain ⟨-, hd, -⟩ := restore_eq_ok.1 h
  by_cases hm : token ∈ index.postings
  · have hw := words token
    rw [hd token hm] at hw ⊢
    rw [strayFreq, if_pos hm, Nat.zero_add, wordCount_of_lt hw]
  · rw [strayFreq, if_neg hm, postingsOf_of_not_mem hm]
    exact (wordCount_of_lt (words token)).symm

theorem CountsFrom.docFreq_eq_size (h : index.CountsFrom start) {token : String}
    (few : (index.postingsOf token).size < 2 ^ 64) (hs : start token < 2 ^ 64) :
    index.docFreq token = (index.postingsOf token).size ↔ start token = 0 := by
  rw [h token]
  unfold wordCount
  omega

/-- After any additions to a restored index the document frequency of a token is the number of its
postings exactly if the token came with a postings list or with no document frequency; and the index
can be restored again exactly if all tokens with postings are such. -/
theorem docFreq_offerAll_eq_size_iff (h : index.restore = .ok restored)
    (words : ∀ token, index.docFreq token < 2 ^ 64) (docs : List Document)
    (few : ∀ token, ((restored.offerAll docs).postingsOf token).size < 2 ^ 64) :
    let grown := restored.offerAll docs
    (∀ token, grown.docFreq token = (grown.postingsOf token).size ↔
      token ∈ index.postings ∨ index.docFreq token = 0) ∧
    (grown.restore = .ok grown ↔
      ∀ token ∈ grown.postings, token ∈ index.postings ∨ index.docFreq token = 0) := by
  intro grown
  obtain ⟨rfl, -, hl⟩ := restore_eq_ok.1 h
  have hc : grown.CountsFrom restored.strayFreq := (countsFrom_strayFreq h words).offerAll docs
  have hs : ∀ token, restored.strayFreq token < 2 ^ 64 := by
    intro token
    have := words token
    unfold strayFreq
    split <;> omega
  have hd : ∀ token, grown.docFreq token = (grown.postingsOf token).size ↔
      token ∈ restored.postings ∨ restored.docFreq token = 0 := fun token =>
    (hc.docFreq_eq_size (few token) (hs token)).trans strayFreq_eq_zero
  have hg : grown.Located := hl.offerAll docs
  refine ⟨hd, ?_⟩
  rw [restore_eq_ok]
  simp only [hd, hg, true_and, and_true]

private def strayHen : Index where
  postings := (∅ : Named (Array Posting)).insert "fox" #[⟨"1", 1⟩]
  docFreqs := ((∅ : Named Nat).insert "fox" 1).insert "hen" 5
  documents := (∅ : Named Record).insert "1" ∅
  stats := ⟨(∅ : Named Nat).insert "1" 1, 1⟩

private def henDocument : Document := ⟨"2", ["hen"], ∅⟩

theorem docFreq_offerAll_eq_size_iff_hen :
    strayHen.restore = .ok strayHen ∧
      (strayHen.offerAll [henDocument]).docFreq "fox" =
        ((strayHen.offerAll [henDocument]).postingsOf "fox").size ∧
      ¬ (strayHen.offerAll [henDocument]).restore = .ok (strayHen.offerAll [henDocument]) := by
  have hok : strayHen.restore = .ok strayHen := rfl
  have words : ∀ token, strayHen.docFreq token < 2 ^ 64 := by
    intro token
    simp only [docFreq, strayHen, Std.ExtTreeMap.getD_insert, Std.ExtTreeMap.getD_empty]
    split
    · decide
    · split <;> decide
  have few : ∀ token, ((strayHen.offerAll [henDocument]).postingsOf token).size < 2 ^ 64 := by
    intro token
    have hi : strayHen.offerAll [henDocument] = strayHen.insert henDocument.id henDocument.tokens
        henDocument.metadata := rfl
    have hs : (strayHen.postingsOf token).size ≤ 1 := by
      simp only [postingsOf, strayHen, Std.ExtTreeMap.getD_insert, Std.ExtTreeMap.getD_empty]
      split <;> decide
    rw [hi, postingsOf_insert]
    split
    · rw [Array.size_push]
      omega
    · omega
  obtain ⟨hd, hr⟩ := docFreq_offerAll_eq_size_iff hok words [henDocument] few
  refine ⟨hok, (hd "fox").2 (.inl (by decide +kernel)), fun hn => ?_⟩
  rcases hr.1 hn "hen" (by decide +kernel) with hm | hz
  · exact absurd hm (by decide +kernel)
  · exact absurd hz (by decide +kernel)

/-- A restored index can give a document frequency to a token that no document contains, and after
an addition its snapshot is refused. -/
theorem restore_stray_docFreq :
    strayHen.restore = .ok strayHen ∧ strayHen.docFreq "hen" = 5 ∧
      strayHen.postingsOf "hen" = #[] ∧
      (strayHen.offerAll [henDocument]).restore = .error (.storage (.postingCount "hen" 1 6)) :=
  ⟨rfl, rfl, rfl, rfl⟩

end Frequencies

section Identity

/-- An index that knows each document that its postings name, names it once for each token, and
counts as many documents as have a length. -/
structure Tracks (index : Index) : Prop where
  known : ∀ token, ∀ p ∈ index.postingsOf token, index.hasDocument p.id = true
  refused : ∀ token, ∀ p ∈ index.postingsOf token, ∀ (tokens : List String) (metadata : Record),
    index.add p.id tokens metadata = .error (.duplicateDocument p.id)
  once : ∀ token, ((index.postingsOf token).toList.map Posting.id).Nodup
  total : index.totalDocs = index.stats.lengths.size

/-- What additions keep: documents with a length are known, postings name a document once, and the
count of documents is that of lengths, as far as a word holds it. -/
structure Registers (index : Index) : Prop where
  located : index.Located
  known : ∀ id ∈ index.stats.lengths, index.hasDocument id = true
  once : ∀ token, ((index.postingsOf token).toList.map Posting.id).Nodup
  total : index.totalDocs = wordCount index.stats.lengths.size

variable {index restored : Index}

theorem Registers.tracks (h : index.Registers) (few : index.stats.lengths.size < 2 ^ 64) :
    index.Tracks where
  known token p hp := h.known p.id (h.located token p hp)
  refused token p hp tokens metadata := by
    rw [add, if_pos (h.known p.id (h.located token p hp))]
  once := h.once
  total := by rw [h.total, wordCount_of_lt few]

theorem Registers.insert (h : index.Registers) {d : Document}
    (hd : ¬ index.hasDocument d.id = true) :
    (index.insert d.id d.tokens d.metadata).Registers where
  located := h.located.insert d
  known id hm := by
    rw [insert_lengths, Std.ExtTreeMap.mem_insert] at hm
    rw [hasDocument_insert]
    exact hm.imp (by simp) (h.known id)
  once token := by
    rw [postingsOf_insert]
    split
    · have hn : ∀ p ∈ index.postingsOf token, p.id ≠ d.id := fun p hp he =>
        hd (he ▸ h.known p.id (h.located token p hp))
      simpa [List.nodup_append, h.once token] using hn
    · exact h.once token
  total := by
    have hn : ¬ index.stats.lengths.contains d.id = true := fun hm =>
      hd (h.known d.id (Std.ExtTreeMap.mem_iff_contains.2 hm))
    rw [totalDocs_insert, insert_lengths, Std.ExtTreeMap.size_insert, if_neg hn, h.total]
    simp [wordCount]

theorem Registers.offerAll (h : index.Registers) (docs : List Document) :
    (index.offerAll docs).Registers :=
  offerAll_induction (fun _ _ hd h => h.insert hd) h docs

/-- A restored index keeps track of its documents through all additions exactly if, at first, each
document with a length is known, no postings list names a document twice, and the count of documents
is that of lengths. -/
theorem tracks_offerAll_iff (h : index.restore = .ok restored)
    (few : index.stats.lengths.size < 2 ^ 64) :
    (∀ docs : List Document, (restored.offerAll docs).stats.lengths.size < 2 ^ 64 →
      (restored.offerAll docs).Tracks) ↔
    (∀ id ∈ index.stats.lengths, index.hasDocument id = true) ∧
      (∀ token, ((index.postingsOf token).toList.map Posting.id).Nodup) ∧
      index.totalDocs = index.stats.lengths.size := by
  obtain ⟨rfl, -, hl⟩ := restore_eq_ok.1 h
  constructor
  · intro ht
    have hstart : restored.Tracks := ht [] few
    refine ⟨fun id hm => ?_, hstart.once, hstart.total⟩
    by_contra hn
    let d : Document := ⟨id, [], ∅⟩
    have hi : restored.offerAll [d] = restored.insert d.id d.tokens d.metadata := by
      show restored.offer d = _
      rw [offer_eq, if_neg hn]
    have hs : (restored.offerAll [d]).stats.lengths.size = restored.stats.lengths.size := by
      rw [hi, insert_lengths, Std.ExtTreeMap.size_insert,
        if_pos (Std.ExtTreeMap.mem_iff_contains.1 hm)]
    have hgrown : (restored.offerAll [d]).totalDocs = restored.stats.lengths.size := by
      rw [(ht [d] (by omega)).total, hs]
    rw [hi, totalDocs_insert, hstart.total] at hgrown
    unfold wordCount at hgrown
    omega
  · rintro ⟨hk, ho, ht⟩ docs hsmall
    have hr : restored.Registers := ⟨hl, hk, ho, by rw [ht, wordCount_of_lt few]⟩
    exact (hr.offerAll docs).tracks hsmall

private def foxIndex : Index where
  postings := (∅ : Named (Array Posting)).insert "fox" #[⟨"1", 1⟩]
  docFreqs := (∅ : Named Nat).insert "fox" 1
  documents := (∅ : Named Record).insert "1" ∅
  stats := ⟨(∅ : Named Nat).insert "1" 1, 1⟩

private def lostFoxIndex : Index := { foxIndex with documents := ∅ }

theorem tracks_offerAll_iff_fox :
    foxIndex.restore = .ok foxIndex ∧ foxIndex.stats.lengths.size < 2 ^ 64 ∧
      ∀ docs : List Document, (foxIndex.offerAll docs).stats.lengths.size < 2 ^ 64 →
        (foxIndex.offerAll docs).Tracks := by
  have hok : foxIndex.restore = .ok foxIndex := rfl
  have few : foxIndex.stats.lengths.size < 2 ^ 64 := by decide +kernel
  refine ⟨hok, few, (tracks_offerAll_iff hok few).2 ⟨fun id hm => ?_, fun token => ?_, rfl⟩⟩
  · simp only [foxIndex, Std.ExtTreeMap.mem_insert, Std.ExtTreeMap.not_mem_empty, or_false] at hm
    simpa [hasDocument, foxIndex] using hm
  · simp only [postingsOf, foxIndex, Std.ExtTreeMap.getD_insert, Std.ExtTreeMap.getD_empty]
    split <;> decide

/-- A restored index can take in a document again that its postings name: they then name it twice,
and two documents are counted where one has a length. -/
theorem restore_unknown_posting :
    lostFoxIndex.restore = .ok lostFoxIndex ∧ lostFoxIndex.postingsOf "fox" = #[⟨"1", 1⟩] ∧
      lostFoxIndex.hasDocument "1" = false ∧
      (lostFoxIndex.offerAll [⟨"1", ["fox"], ∅⟩]).postingsOf "fox" = #[⟨"1", 1⟩, ⟨"1", 1⟩] ∧
      (lostFoxIndex.offerAll [⟨"1", ["fox"], ∅⟩]).totalDocs = 2 ∧
      (lostFoxIndex.offerAll [⟨"1", ["fox"], ∅⟩]).stats.lengths.size = 1 :=
  ⟨rfl, rfl, rfl, rfl, rfl, rfl⟩

end Identity

end Index

end Concordance

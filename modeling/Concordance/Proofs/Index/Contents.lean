import Concordance.Index.Inverted
import Mathlib

/-!
What an index holds.  An index that has taken in a list of documents with distinct identifiers is
determined by that list, and adding one more document extends the list.
-/

namespace Concordance

structure Document where
  id : String
  tokens : List String
  metadata : Record

section Named

variable {β γ : Type}

theorem nodup_keys_toList (m : Named β) : (m.toList.map Prod.fst).Nodup := by
  rw [Std.ExtTreeMap.map_fst_toList_eq_keys]
  exact Std.ExtTreeMap.nodup_keys

theorem lookup_toList (m : Named β) (name : String) : m.toList.lookup name = m[name]? := by
  have hn := nodup_keys_toList m
  have hm : ∀ v, (name, v) ∈ m.toList ↔ m[name]? = some v := fun v => by simp
  generalize m.toList = l at hn hm
  cases hv : m[name]? with
  | none =>
    refine List.lookup_eq_none_iff.2 fun p hp => ?_
    have h := hm p.2
    rw [hv] at h
    by_contra he
    have he : name = p.1 := by simpa using he
    subst he
    simpa using h.1 hp
  | some v =>
    obtain ⟨l₁, l₂, rfl⟩ := List.append_of_mem ((hm v).2 hv)
    refine List.lookup_eq_some_iff.2 ⟨l₁, l₂, rfl, fun p hp => ?_⟩
    have h := (List.nodup_append.1 (by simpa using hn)).2.2 p.1 (List.mem_map_of_mem hp) name
    simpa using fun he => h (by simp) he.symm

theorem getElem?_foldl_alter (f : γ → Option β → β) (l : List (String × γ)) (m : Named β)
    (hl : (l.map Prod.fst).Nodup) (name : String) :
    (l.foldl (fun m p => m.alter p.1 fun b => some (f p.2 b)) m)[name]? =
      match l.lookup name with
      | some g => some (f g m[name]?)
      | none => m[name]? := by
  induction l generalizing m with
  | nil => rfl
  | cons p l ih =>
    obtain ⟨key, g⟩ := p
    simp only [List.map_cons, List.nodup_cons] at hl
    rw [List.foldl_cons, ih _ hl.2, List.lookup_cons, Std.ExtTreeMap.getElem?_alter]
    by_cases he : name = key
    · subst he
      have hn : l.lookup name = none := by
        refine List.lookup_eq_none_iff.2 fun q hq => ?_
        have hq := List.mem_map_of_mem (f := Prod.fst) hq
        simpa using fun he : name = q.1 => hl.1 (he ▸ hq)
      simp [hn]
    · have hk : (name == key) = false := by simpa using he
      have hc : compare key name ≠ .eq := by simpa using Ne.symm he
      simp [hk, hc]

end Named

/-- How often a token counts among others, in the word that holds it. -/
def tally (tokens : List String) (token : String) : UInt32 := .ofNat (tokens.count token)

/-- No token occurs so often that its count overflows. -/
def CountsFit (tokens : List String) : Prop := ∀ token ∈ tokens, tokens.count token < 2 ^ 32

instance (tokens : List String) : Decidable (CountsFit tokens) :=
  inferInstanceAs (Decidable (∀ token ∈ tokens, tokens.count token < 2 ^ 32))

section Tally

variable {tokens : List String} {token : String}

theorem toNat_tally : (tally tokens token).toNat = tokens.count token % 2 ^ 32 :=
  UInt32.toNat_ofNat'

theorem toNat_tally_of_not_mem (h : token ∉ tokens) : (tally tokens token).toNat = 0 := by
  rw [toNat_tally, List.count_eq_zero_of_not_mem h]
  rfl

theorem mem_of_tally_ne_zero (h : (tally tokens token).toNat ≠ 0) : token ∈ tokens := by
  by_contra hn
  exact h (toNat_tally_of_not_mem hn)

theorem CountsFit.toNat_tally (h : CountsFit tokens) (token : String) :
    (tally tokens token).toNat = tokens.count token := by
  by_cases hm : token ∈ tokens
  · exact Concordance.toNat_tally.trans (Nat.mod_eq_of_lt (h token hm))
  · rw [toNat_tally_of_not_mem hm, List.count_eq_zero_of_not_mem hm]

end Tally

theorem getElem?_histogram (tokens : List String) (token : String) :
    (histogram tokens)[token]? = if token ∈ tokens then some (tally tokens token) else none := by
  have run : ∀ (counts : Named UInt32), (tokens.foldl
      (fun counts token => counts.alter token fun n => some (n.getD 0 + 1)) counts)[token]? =
      if token ∈ tokens then some (counts[token]?.getD 0 + tally tokens token)
      else counts[token]? := by
    induction tokens with
    | nil => intro counts; simp
    | cons first rest ih =>
      intro counts
      rw [List.foldl_cons, ih, Std.ExtTreeMap.getElem?_alter]
      by_cases he : first = token
      · subst he
        have ht : tally (first :: rest) first = 1 + tally rest first := by
          rw [tally, List.count_cons_self, UInt32.ofNat_add, UInt32.add_comm]
          rfl
        by_cases hr : first ∈ rest
        · simp [hr, ht, UInt32.add_assoc]
        · simp [hr, tally, List.count_eq_zero_of_not_mem hr]
      · have ht : tally (first :: rest) token = tally rest token := by
          rw [tally, List.count_cons_of_ne he, tally]
        simp [he, Ne.symm he, ht]
  simpa [histogram] using run ∅

theorem getElem?_foldl_histogram {β : Type} (f : UInt32 → Option β → β) (tokens : List String)
    (m : Named β) (token : String) :
    ((histogram tokens).toList.foldl (fun m p => m.alter p.1 fun b => some (f p.2 b)) m)[token]? =
      if token ∈ tokens then some (f (tally tokens token) m[token]?) else m[token]? := by
  rw [getElem?_foldl_alter f _ _ (nodup_keys_toList _), lookup_toList, getElem?_histogram]
  by_cases h : token ∈ tokens <;> simp [h]

namespace Index

theorem foldl_addPosting (id : String) (l : List (String × UInt32)) (index : Index) :
    l.foldl (fun i p => addPosting id i p.1 p.2) index =
      { index with
        postings := l.foldl (fun m p => m.alter p.1 fun ps =>
          some ((ps.getD #[]).push ⟨id, p.2⟩)) index.postings
        docFreqs := l.foldl (fun m p => m.alter p.1 fun n =>
          some (wordCount (n.getD 0 + 1))) index.docFreqs } := by
  induction l generalizing index with
  | nil => rfl
  | cons p l ih => rw [List.foldl_cons, ih]; rfl

section Insert

variable (index : Index) (d : Document) (token : String)

theorem insert_postings :
    (index.insert d.id d.tokens d.metadata).postings[token]? =
      if token ∈ d.tokens then
        some ((index.postings[token]?.getD #[]).push ⟨d.id, tally d.tokens token⟩)
      else index.postings[token]? := by
  unfold insert
  rw [Std.ExtTreeMap.foldl_eq_foldl_toList, foldl_addPosting]
  exact getElem?_foldl_histogram (fun n ps => (ps.getD #[]).push (Posting.mk d.id n)) ..

theorem insert_docFreqs :
    (index.insert d.id d.tokens d.metadata).docFreqs[token]? =
      if token ∈ d.tokens then some (wordCount (index.docFreqs[token]?.getD 0 + 1))
      else index.docFreqs[token]? := by
  unfold insert
  rw [Std.ExtTreeMap.foldl_eq_foldl_toList, foldl_addPosting]
  exact getElem?_foldl_histogram (fun _ n => wordCount (n.getD 0 + 1)) ..

theorem insert_documents :
    (index.insert d.id d.tokens d.metadata).documents = index.documents.insert d.id d.metadata := by
  unfold insert
  rw [Std.ExtTreeMap.foldl_eq_foldl_toList, foldl_addPosting]

theorem insert_stats :
    (index.insert d.id d.tokens d.metadata).stats = index.stats.add d.id d.tokens.length := by
  unfold insert
  rw [Std.ExtTreeMap.foldl_eq_foldl_toList, foldl_addPosting]

end Insert

end Index

def documentOf? (docs : List Document) (id : String) : Option Document := docs.find? (·.id == id)

def postingsIn (docs : List Document) (token : String) : List Posting :=
  (docs.filter fun d => token ∈ d.tokens).map fun d => ⟨d.id, tally d.tokens token⟩

theorem documentOf?_append (docs : List Document) (d : Document) (id : String)
    (hd : d.id ∉ docs.map Document.id) :
    documentOf? (docs ++ [d]) id = if d.id = id then some d else documentOf? docs id := by
  unfold documentOf?
  rw [List.find?_append]
  by_cases he : d.id = id
  · have hn : docs.find? (·.id == id) = none := by
      refine List.find?_eq_none.2 fun e hm => ?_
      have hm := List.mem_map_of_mem (f := Document.id) hm
      simpa using fun h : e.id = id => hd (he ▸ h ▸ hm)
    simp [hn, he]
  · simp [he]

theorem postingsIn_append (docs : List Document) (d : Document) (token : String) :
    postingsIn (docs ++ [d]) token =
      postingsIn docs token ++ if token ∈ d.tokens then [⟨d.id, tally d.tokens token⟩] else [] := by
  by_cases h : token ∈ d.tokens <;> simp [postingsIn, h]

theorem documentOf?_eq_some {docs : List Document} (hd : (docs.map Document.id).Nodup)
    {id : String} {d : Document} : documentOf? docs id = some d ↔ d ∈ docs ∧ d.id = id := by
  constructor
  · intro h
    exact ⟨List.mem_of_find?_eq_some h, by simpa using List.find?_some h⟩
  · rintro ⟨hm, rfl⟩
    cases h : documentOf? docs d.id with
    | none => simpa using List.find?_eq_none.1 h d hm
    | some e =>
      have he : e.id = d.id := by simpa using List.find?_some h
      rw [List.inj_on_of_nodup_map hd (List.mem_of_find?_eq_some h) hm he]

namespace Index

theorem mem_keys_documents (index : Index) {id : String} :
    id ∈ index.documents.keys ↔ index.hasDocument id = true :=
  Std.ExtTreeMap.mem_keys.trans Std.ExtTreeMap.mem_iff_contains

/-- An index that has taken in these documents, in this order, and nothing else. -/
structure Holds (index : Index) (docs : List Document) : Prop where
  distinct : (docs.map Document.id).Nodup
  documents : ∀ id, index.documents[id]? = (documentOf? docs id).map Document.metadata
  lengths : ∀ id, index.stats.lengths[id]? = (documentOf? docs id).map (·.tokens.length)
  total : index.stats.total = wordCount docs.length
  postings : ∀ token, index.postings[token]? =
    if postingsIn docs token = [] then none else some (postingsIn docs token).toArray
  docFreqs : ∀ token : String,
    index.docFreqs[token]? = index.postings[token]?.map fun ps => wordCount ps.size

theorem holds_nil : Holds {} [] where
  distinct := by simp
  documents _ := by simp [documentOf?]
  lengths _ := by simp [documentOf?]
  total := rfl
  postings _ := by simp [postingsIn]
  docFreqs _ := by simp

theorem Holds.insert {index : Index} {docs : List Document} (h : index.Holds docs) (d : Document)
    (hd : d.id ∉ docs.map Document.id) :
    (index.insert d.id d.tokens d.metadata).Holds (docs ++ [d]) where
  distinct := by
    simpa [List.nodup_append] using ⟨h.distinct, fun e he hi => hd (hi ▸ List.mem_map_of_mem he)⟩
  documents id := by
    rw [insert_documents, documentOf?_append _ _ _ hd, Std.ExtTreeMap.getElem?_insert, h.documents]
    by_cases he : d.id = id <;> simp [he]
  lengths id := by
    rw [insert_stats, documentOf?_append _ _ _ hd]
    show (index.stats.lengths.insert d.id d.tokens.length)[id]? = _
    rw [Std.ExtTreeMap.getElem?_insert, h.lengths]
    by_cases he : d.id = id <;> simp [he]
  total := by
    rw [insert_stats]
    show wordCount (index.stats.total + 1) = _
    rw [h.total]
    simp [wordCount]
  postings token := by
    rw [insert_postings, postingsIn_append, h.postings]
    by_cases ht : token ∈ d.tokens
    · by_cases hp : postingsIn docs token = [] <;> simp [ht, hp]
    · simp [ht]
  docFreqs token := by
    rw [insert_docFreqs, insert_postings, h.docFreqs]
    by_cases ht : token ∈ d.tokens
    · cases index.postings[token]? <;> simp [ht, wordCount]
    · simp [ht]

section Holds

variable {index : Index} {docs : List Document} (h : index.Holds docs)
include h

theorem Holds.hasDocument (id : String) :
    index.hasDocument id = true ↔ id ∈ docs.map Document.id := by
  unfold Index.hasDocument
  rw [Std.ExtTreeMap.contains_eq_isSome_getElem?, h.documents]
  simp [documentOf?]

theorem Holds.postingsOf (token : String) :
    index.postingsOf token = (postingsIn docs token).toArray := by
  unfold Index.postingsOf
  rw [Std.ExtTreeMap.getD_eq_getD_getElem?, h.postings]
  by_cases hp : postingsIn docs token = [] <;> simp [hp]

theorem Holds.docFreq (token : String) :
    index.docFreq token = wordCount (index.postingsOf token).size := by
  unfold Index.docFreq Index.postingsOf
  rw [Std.ExtTreeMap.getD_eq_getD_getElem?, Std.ExtTreeMap.getD_eq_getD_getElem?, h.docFreqs]
  cases index.postings[token]? <;> rfl

theorem Holds.contains (id token : String) :
    index.contains id token = true ↔ ∃ d ∈ docs, d.id = id ∧ token ∈ d.tokens := by
  unfold Index.contains
  rw [h.postingsOf]
  simp [postingsIn, and_assoc, and_comm]

theorem Holds.termFrequency (id token : String) : index.termFrequency id token =
    (documentOf? docs id).elim 0 fun d => (tally d.tokens token).toNat := by
  unfold Index.termFrequency
  rw [h.postingsOf, List.find?_toArray]
  cases hf : (postingsIn docs token).find? (·.id == id) with
  | some p =>
    have hi : p.id = id := by simpa using List.find?_some hf
    obtain ⟨d, hd, rfl⟩ := List.mem_map.1 (List.mem_of_find?_eq_some hf)
    rw [(documentOf?_eq_some h.distinct).2 ⟨(List.mem_filter.1 hd).1, hi⟩]
    rfl
  | none =>
    cases hd : documentOf? docs id with
    | none => rfl
    | some d =>
      obtain ⟨hm, hi⟩ := (documentOf?_eq_some h.distinct).1 hd
      have hn : token ∉ d.tokens := fun ht => by
        have hp : ⟨d.id, tally d.tokens token⟩ ∈ postingsIn docs token :=
          List.mem_map_of_mem (List.mem_filter.2 ⟨hm, by simpa using ht⟩)
        simpa [hi] using List.find?_eq_none.1 hf _ hp
      exact (toNat_tally_of_not_mem hn).symm

theorem Holds.contains_iff_documentOf? {id token : String} : index.contains id token = true ↔
    ∃ d, documentOf? docs id = some d ∧ token ∈ d.tokens := by
  simp only [h.contains, documentOf?_eq_some h.distinct, and_assoc]

theorem Holds.contains_of_termFrequency_ne_zero {id token : String}
    (hn : index.termFrequency id token ≠ 0) : index.contains id token = true := by
  rw [h.termFrequency] at hn
  rw [h.contains_iff_documentOf?]
  cases hd : documentOf? docs id with
  | none => simp [hd] at hn
  | some d =>
    rw [hd, Option.elim_some] at hn
    exact ⟨d, rfl, mem_of_tally_ne_zero hn⟩

/-- A token of a document has a frequency above zero unless its count overflows. -/
theorem Holds.termFrequency_ne_zero {id token : String}
    (fit : ∀ d, documentOf? docs id = some d → CountsFit d.tokens) :
    index.termFrequency id token ≠ 0 ↔ index.contains id token = true := by
  refine ⟨h.contains_of_termFrequency_ne_zero, fun hc => ?_⟩
  obtain ⟨d, hd, ht⟩ := h.contains_iff_documentOf?.1 hc
  rw [h.termFrequency, hd, Option.elim_some, (fit d hd).toNat_tally]
  exact (List.count_pos_iff.2 ht).ne'

theorem Holds.docFreq_bounds (hw : docs.length < 2 ^ 64) {id token : String}
    (hc : index.contains id token = true) :
    0 < index.docFreq token ∧ index.docFreq token ≤ index.totalDocs := by
  obtain ⟨d, hd, -, ht⟩ := (h.contains id token).1 hc
  have hp : 0 < (postingsIn docs token).length :=
    List.length_pos_of_mem (List.mem_map_of_mem (List.mem_filter.2 ⟨hd, by simpa using ht⟩))
  have hl : (postingsIn docs token).length ≤ docs.length := by
    simpa [postingsIn] using List.length_filter_le ..
  rw [h.docFreq, h.postingsOf, List.size_toArray, wordCount_of_lt (by omega), Index.totalDocs,
    h.total, wordCount_of_lt hw]
  exact ⟨hp, hl⟩

theorem Holds.vocabularySize :
    index.vocabularySize = (docs.flatMap Document.tokens).dedup.length := by
  have hk : ∀ token,
      token ∈ index.postings.keys ↔ token ∈ (docs.flatMap Document.tokens).dedup := by
    intro token
    rw [Std.ExtTreeMap.mem_keys, Std.ExtTreeMap.mem_iff_isSome_getElem?, h.postings]
    by_cases hp : postingsIn docs token = [] <;> simp_all [postingsIn]
  have hp := (List.perm_ext_iff_of_nodup Std.ExtTreeMap.nodup_keys (List.nodup_dedup _)).2 hk
  rw [← hp.length_eq, Std.ExtTreeMap.length_keys]
  rfl

theorem Holds.keys_perm : index.documents.keys.Perm (docs.map Document.id) := by
  refine (List.perm_ext_iff_of_nodup Std.ExtTreeMap.nodup_keys h.distinct).2 fun id => ?_
  rw [← h.hasDocument, index.mem_keys_documents]

theorem Holds.size_documents : index.documents.size = docs.length := by
  rw [← Std.ExtTreeMap.length_keys, h.keys_perm.length_eq, List.length_map]

end Holds

end Index

end Concordance

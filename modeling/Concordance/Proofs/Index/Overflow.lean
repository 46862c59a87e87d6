import Concordance.Proofs.Index.Restored

/-!
Counters that overflow.  Whether the counters of an index stay within words while documents come in
is settled by what they are at the start: each document that is taken in counts once, and its length
takes the place of the one that was there.
-/

namespace Concordance

theorem foldl_add_eq_sum (counts : Named Nat) (names : Finset String)
    (h : ∀ name ∈ counts, name ∈ names) :
    counts.foldl (fun sum _ n => sum + n) 0 = ∑ name ∈ names, counts.getD name 0 := by
  have hkeys : counts.toList.map Prod.snd = counts.keys.map (counts.getD · 0) := by
    rw [← Std.ExtTreeMap.map_fst_toList_eq_keys, List.map_map]
    refine List.map_congr_left fun p hp => ?_
    have hg := Std.ExtTreeMap.mem_toList_iff_getElem?_eq_some.1 hp
    simp [Std.ExtTreeMap.getD_eq_getD_getElem?, hg]
  have hfold : ∀ (l : List (String × Nat)) (start : Nat),
      l.foldl (fun sum p => sum + p.2) start = start + (l.map Prod.snd).sum := by
    intro l
    induction l with
    | nil => simp
    | cons p l ih => intro start; simp [ih, Nat.add_assoc]
  have hsub : counts.keys.toFinset ⊆ names := by
    intro name hn
    exact h name (by simpa using hn)
  rw [Std.ExtTreeMap.foldl_eq_foldl_toList, hfold, hkeys, Nat.zero_add,
    ← List.sum_toFinset _ Std.ExtTreeMap.nodup_keys]
  refine Finset.sum_subset hsub fun name _ hn => Std.ExtTreeMap.getD_eq_fallback ?_
  simpa using hn

namespace CorpusStats

/-- The sum of the document lengths, of which `lengthSum` is what a word holds. -/
def exactSum (s : CorpusStats) : Nat := s.lengths.foldl (fun sum _ length => sum + length) 0

theorem exactSum_add (s : CorpusStats) (id : String) (length : Nat) :
    (s.add id length).exactSum + s.lengths.getD id 0 = s.exactSum + length := by
  have hnew := foldl_add_eq_sum (s.add id length).lengths (insert id s.lengths.keys.toFinset)
    (fun name hn => by
      rcases Std.ExtTreeMap.mem_insert.1 hn with he | hn
      · simp [Std.LawfulEqCmp.compare_eq_iff_eq.1 he]
      · simp [hn])
  have hold := foldl_add_eq_sum s.lengths (insert id s.lengths.keys.toFinset)
    (fun name hn => by simp [hn])
  rw [← Finset.add_sum_erase _ _ (Finset.mem_insert_self ..)] at hnew hold
  have hrest : ∀ name ∈ (insert id s.lengths.keys.toFinset).erase id,
      (s.add id length).lengths.getD name 0 = s.lengths.getD name 0 := by
    intro name hn
    simp [add, Std.ExtTreeMap.getD_insert, (Finset.ne_of_mem_erase hn).symm]
  rw [Finset.sum_congr rfl hrest] at hnew
  have hid : (s.add id length).lengths.getD id 0 = length := by simp [add]
  unfold exactSum
  omega

end CorpusStats

namespace Index

/-- A document that the counters can count: those that go up stay words. -/
structure CanCount (index : Index) (d : Document) : Prop where
  total : index.totalDocs + 1 < 2 ^ 64
  docFreqs : ∀ token ∈ d.tokens, index.docFreq token + 1 < 2 ^ 64

def Counted (index : Index) : List Document → Prop
  | [] => index.stats.exactSum < 2 ^ 64
  | d :: rest => index.stats.exactSum < 2 ^ 64 ∧
      (¬ index.hasDocument d.id = true → index.CanCount d) ∧ (index.offer d).Counted rest

theorem Counted.exactSum_lt {index : Index} {docs : List Document} (h : index.Counted docs) :
    index.stats.exactSum < 2 ^ 64 := by
  cases docs with
  | nil => exact h
  | cons d rest => exact h.1

/-- The documents that are taken in. -/
def taken (index : Index) : List Document → List Document
  | [] => []
  | d :: rest =>
    if index.hasDocument d.id = true then index.taken rest
    else d :: (index.insert d.id d.tokens d.metadata).taken rest

variable {index : Index} {d : Document}

theorem hasDocument_of_mem_taken {docs : List Document} (h : d ∈ index.taken docs) :
    ¬ index.hasDocument d.id = true := by
  induction docs generalizing index with
  | nil => simp [taken] at h
  | cons first rest ih =>
    rw [taken] at h
    split at h
    · exact ih h
    next hn =>
      rcases List.mem_cons.1 h with rfl | h
      · exact hn
      · exact fun hd => ih h ((hasDocument_insert ..).2 (.inr hd))

theorem length_postingsIn_cons (d : Document) (docs : List Document) (token : String) :
    (postingsIn (d :: docs) token).length =
      (if token ∈ d.tokens then 1 else 0) + (postingsIn docs token).length := by
  by_cases h : token ∈ d.tokens <;> simp [postingsIn, h, Nat.add_comm]

theorem size_postingsOf_offerAll (docs : List Document) (token : String) :
    ((index.offerAll docs).postingsOf token).size =
      (index.postingsOf token).size + (postingsIn (index.taken docs) token).length := by
  induction docs generalizing index with
  | nil => rfl
  | cons d rest ih =>
    show ((offerAll (index.offer d) rest).postingsOf token).size = _
    rw [ih, offer_eq, taken]
    split
    · rfl
    · rw [postingsOf_insert, length_postingsIn_cons]
      by_cases ht : token ∈ d.tokens <;> simp [ht, Nat.add_assoc]

theorem exactSum_offerAll (index : Index) (docs : List Document) :
    (index.offerAll docs).stats.exactSum +
        ((index.taken docs).map fun d => index.stats.lengths.getD d.id 0).sum =
      index.stats.exactSum + ((index.taken docs).map fun d => d.tokens.length).sum := by
  induction docs generalizing index with
  | nil => rfl
  | cons d rest ih =>
    show (offerAll (index.offer d) rest).stats.exactSum + _ = _
    rw [offer_eq, taken]
    split
    · exact ih index
    next hn =>
      have hrest := ih (index.insert d.id d.tokens d.metadata)
      have hold : ∀ later ∈ (index.insert d.id d.tokens d.metadata).taken rest,
          (index.insert d.id d.tokens d.metadata).stats.lengths.getD later.id 0 =
            index.stats.lengths.getD later.id 0 := by
        intro later hm
        have hne : d.id ≠ later.id := fun he =>
          hasDocument_of_mem_taken hm ((hasDocument_insert ..).2 (.inl he))
        simp [insert_lengths, Std.ExtTreeMap.getD_insert, hne]
      rw [List.map_congr_left hold, insert_stats] at hrest
      have hadd := index.stats.exactSum_add d.id d.tokens.length
      simp only [List.map_cons, List.sum_cons]
      omega

theorem CanCount.totalDocs_insert (h : index.CanCount d) :
    (index.insert d.id d.tokens d.metadata).totalDocs = index.totalDocs + 1 := by
  rw [Index.totalDocs_insert, wordCount_of_lt h.total]

theorem CanCount.docFreq_insert (h : index.CanCount d) (token : String) :
    (index.insert d.id d.tokens d.metadata).docFreq token =
      index.docFreq token + if token ∈ d.tokens then 1 else 0 := by
  rw [Index.docFreq_insert]
  split
  next ht => rw [wordCount_of_lt (h.docFreqs token ht)]
  · rfl

theorem forall_prefix_cons {α : Type} {a : α} {l : List α} {P : List α → Prop} :
    (∀ done, done <+: a :: l → P done) ↔ P [] ∧ ∀ done, done <+: l → P (a :: done) := by
  simp only [List.prefix_cons_iff]
  constructor
  · exact fun h => ⟨h [] (.inl rfl), fun done hd => h _ (.inr ⟨done, rfl, hd⟩)⟩
  · rintro ⟨hnil, hcons⟩ done (rfl | ⟨done, rfl, hd⟩)
    · exact hnil
    · exact hcons done hd

structure InWords (index : Index) : Prop where
  total : index.totalDocs < 2 ^ 64
  docFreqs : ∀ token, index.docFreq token < 2 ^ 64

theorem InWords.insert (h : index.InWords) (d : Document) :
    (index.insert d.id d.tokens d.metadata).InWords where
  total := by
    rw [Index.totalDocs_insert]
    exact Nat.mod_lt _ (by decide)
  docFreqs token := by
    rw [Index.docFreq_insert]
    split
    · exact Nat.mod_lt _ (by decide)
    · exact h.docFreqs token

/-- There is room in the counters for all documents that are taken in. -/
structure HasRoom (index : Index) (docs : List Document) : Prop where
  total : index.totalDocs + (index.taken docs).length < 2 ^ 64
  docFreqs : ∀ token,
    index.docFreq token + (postingsIn (index.taken docs) token).length < 2 ^ 64

theorem hasRoom_cons_of_taken {docs : List Document} (hd : index.hasDocument d.id = true) :
    index.HasRoom (d :: docs) ↔ index.HasRoom docs := by
  have ht : index.taken (d :: docs) = index.taken docs := by rw [taken, if_pos hd]
  exact ⟨fun h => ⟨ht ▸ h.total, ht ▸ h.docFreqs⟩, fun h => ⟨ht ▸ h.total, ht ▸ h.docFreqs⟩⟩

theorem hasRoom_cons_of_new {docs : List Document} (hd : ¬ index.hasDocument d.id = true) :
    index.HasRoom (d :: docs) ↔
      index.CanCount d ∧ (index.insert d.id d.tokens d.metadata).HasRoom docs := by
  have ht : index.taken (d :: docs) =
      d :: (index.insert d.id d.tokens d.metadata).taken docs := by rw [taken, if_neg hd]
  constructor
  · rintro ⟨htotal, hfreqs⟩
    simp only [ht, List.length_cons, length_postingsIn_cons] at htotal hfreqs
    have hcan : index.CanCount d := by
      refine ⟨by omega, fun token hm => ?_⟩
      have h := hfreqs token
      rw [if_pos hm] at h
      omega
    refine ⟨hcan, ⟨?_, fun token => ?_⟩⟩
    · rw [hcan.totalDocs_insert]
      omega
    · have h := hfreqs token
      rw [hcan.docFreq_insert]
      omega
  · rintro ⟨hcan, htotal, hfreqs⟩
    rw [hcan.totalDocs_insert] at htotal
    refine ⟨?_, fun token => ?_⟩
    · rw [ht, List.length_cons]
      omega
    · have h := hfreqs token
      rw [hcan.docFreq_insert] at h
      rw [ht, length_postingsIn_cons]
      omega

/-- Counters stay within words exactly if there is room and the sums of lengths are words. -/
theorem counted_iff {docs : List Document} (h : index.InWords) :
    index.Counted docs ↔ index.HasRoom docs ∧
      ∀ done, done <+: docs → (index.offerAll done).stats.exactSum < 2 ^ 64 := by
  induction docs generalizing index with
  | nil =>
    have hroom : index.HasRoom [] := ⟨h.total, h.docFreqs⟩
    simp only [Counted, hroom, true_and, List.prefix_nil, forall_eq]
    rfl
  | cons d rest ih =>
    rw [Counted, forall_prefix_cons]
    by_cases hd : index.hasDocument d.id = true
    · have ho : index.offer d = index := by rw [offer_eq, if_pos hd]
      rw [ho, ih h, hasRoom_cons_of_taken hd]
      simp only [hd, not_true_eq_false, false_implies, true_and, offerAll, List.foldl_nil,
        List.foldl_cons, ho]
      exact and_left_comm
    · have ho : index.offer d = index.insert d.id d.tokens d.metadata := by rw [offer_eq, if_neg hd]
      rw [ho, ih (h.insert d), hasRoom_cons_of_new hd]
      simp only [hd, offerAll, List.foldl_nil, List.foldl_cons, ho]
      tauto

end Index

end Concordance

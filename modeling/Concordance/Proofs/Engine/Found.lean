import Concordance.Proofs.Engine.Evaluation
import Concordance.Proofs.Number.Positive

/-!
What a search by term frequency finds.  A document that matches contains a token searched for, and its
score is above zero unless the counts of all such tokens overflow.
-/

namespace Concordance

section Score

variable {tokens : List String}

theorem aboveZero_foldl {count : String → Nat} {total : Double}
    (ht : total.value = 0 ∨ AboveZero total.value)
    (h : AboveZero total.value ∨ ∃ token ∈ tokens, count token ≠ 0) :
    AboveZero (tokens.foldl (fun total token =>
      if count token == 0 then total else total + Scalar.ofNat (count token)) total).value := by
  induction tokens generalizing total with
  | nil => simpa using h
  | cons token tokens ih =>
    rw [List.foldl_cons]
    by_cases hc : count token = 0
    · rw [if_pos (by simpa using hc)]
      refine ih ht (h.imp_right ?_)
      rintro ⟨other, hm, hn⟩
      rcases List.mem_cons.1 hm with rfl | hm
      · exact absurd hc hn
      · exact ⟨other, hm, hn⟩
    · have hp : AboveZero (Float.ofNat (count token)) := aboveZero_ofNat (by omega)
      have hs : AboveZero (total + Scalar.ofNat (count token)).value := by
        show AboveZero (total.value + Float.ofNat (count token))
        rcases ht with ht | ht
        · rw [ht]
          exact hp.zero_add
        · exact ht.add hp
      rw [if_neg (by simpa using hc)]
      exact ih (.inr hs) (.inl hs)

theorem foldl_of_zero {count : String → Nat} {total : Double}
    (h : ∀ token ∈ tokens, count token = 0) : tokens.foldl (fun total token =>
      if count token == 0 then total else total + Scalar.ofNat (count token)) total = total := by
  induction tokens with
  | nil => rfl
  | cons token tokens ih =>
    obtain ⟨hc, hr⟩ := List.forall_mem_cons.1 h
    rw [List.foldl_cons, if_pos (by simpa using hc), ih hr]

theorem isZero_termFrequencyScore {index : Index} {id : String} :
    Scalar.isZero (termFrequencyScore tokens index id : Score Double).total = true ↔
      ∀ token ∈ tokens, index.termFrequency id token = 0 := by
  have ht : (termFrequencyScore tokens index id : Score Double).total =
      tokens.foldl (fun total token => if index.termFrequency id token == 0 then total
        else total + Scalar.ofNat (index.termFrequency id token)) Scalar.zero := by
    refine (List.foldl_hom Score.total fun score token => ?_).symm
    dsimp only
    split <;> rfl
  rw [ht]
  constructor
  · intro hz
    by_contra hn
    simp only [not_forall] at hn
    obtain ⟨token, hm, hn⟩ := hn
    have hzero : (Scalar.zero : Double).value = 0 := rfl
    have hp := aboveZero_foldl (.inl hzero) (.inr ⟨token, hm, hn⟩)
    exact Bool.false_ne_true (hp.beq_zero.symm.trans hz)
  · intro hz
    rw [foldl_of_zero hz]
    rfl

end Score

abbrev byFrequency : Scorer Double := Ranking.termFrequency.scorer

namespace Engine

variable {β : Type}

def soughtWords (e : Engine β) (text : String) : List String :=
  (Query.parse text).soughtWords e.config.stopWords

/-- The documents that a query asks for. -/
def found (e : Engine β) (text : String) : List String :=
  if e.soughtWords text = [] then []
  else e.index.documents.keys.filter fun id =>
    (Query.parse text).Matches e.config.stopWords (e.tokens id)

/-- The documents of these in which some word looked up is counted: not all counts begin again at
zero. -/
def counted (e : Engine β) (text : String) : List String :=
  (e.found text).filter fun id =>
    ∃ word ∈ e.soughtWords text, (e.tokens id).count word % 2 ^ 32 ≠ 0

def CountsFit (e : Engine β) : Prop :=
  ∀ id ∈ e.index.documents.keys, Concordance.CountsFit (e.tokens id)

instance (e : Engine β) : Decidable e.CountsFit :=
  inferInstanceAs (Decidable (∀ id ∈ e.index.documents.keys, Concordance.CountsFit (e.tokens id)))

variable {e : Engine β} {docs : List Document} {text id : String}

theorem mem_found : id ∈ e.found text ↔ e.soughtWords text ≠ [] ∧
    e.index.hasDocument id = true ∧
      (Query.parse text).Matches e.config.stopWords (e.tokens id) := by
  unfold found
  split
  next hn => simp [hn]
  next hn =>
    rw [List.mem_filter, e.index.mem_keys_documents, decide_eq_true_eq]
    exact (and_iff_right hn).symm

theorem mem_counted : id ∈ e.counted text ↔ id ∈ e.found text ∧
    ∃ word ∈ e.soughtWords text, (e.tokens id).count word % 2 ^ 32 ≠ 0 := by
  rw [counted, List.mem_filter, decide_eq_true_eq]

theorem exists_soughtWord (hf : id ∈ e.found text) :
    ∃ word ∈ e.soughtWords text, word ∈ e.tokens id := by
  obtain ⟨hn, -, hm⟩ := mem_found.1 hf
  obtain ⟨word, hw⟩ := List.exists_mem_of_ne_nil _ hn
  exact hm.exists_soughtWord Query.optional_eq_empty hw

theorem mem_counted_iff_of_fit (fit : Concordance.CountsFit (e.tokens id)) :
    id ∈ e.counted text ↔ id ∈ e.found text := by
  rw [mem_counted]
  refine and_iff_left_of_imp fun hf => ?_
  obtain ⟨word, hw, hm⟩ := exists_soughtWord hf
  refine ⟨word, hw, ?_⟩
  rw [Nat.mod_eq_of_lt (fit word hm)]
  exact (List.count_pos_iff.2 hm).ne'

theorem CountsFit.counted_eq (fit : e.CountsFit) (text : String) : e.counted text = e.found text := by
  refine List.filter_eq_self.2 fun id hf => ?_
  have hk : id ∈ e.index.documents.keys := e.index.mem_keys_documents.2 (mem_found.1 hf).2.1
  exact (List.mem_filter.1 ((mem_counted_iff_of_fit (fit id hk)).2 hf)).2

theorem Holds.termFrequency_ne_zero (h : e.Holds docs) (fit : e.CountsFit) {token : String} :
    e.index.termFrequency id token ≠ 0 ↔ e.index.contains id token = true := by
  refine h.holds_index.termFrequency_ne_zero fun d hd => ?_
  have hk : id ∈ e.index.documents.keys := by
    rw [Std.ExtTreeMap.mem_keys, Std.ExtTreeMap.mem_iff_isSome_getElem?,
      h.holds_index.documents, hd]
    rfl
  have hfit := fit id hk
  rwa [h.tokens, hd] at hfit

/-- With room for all documents a search gives those of the documents asked for that do not score
zero. -/
theorem Holds.search_found {α : Type} [Scalar α] (h : e.Holds docs) (score : Scorer α)
    (text : String) {limit : Nat} (hl : e.index.documents.size ≤ limit) :
    e.search score text limit = .ok ((((e.found text).filter fun id =>
      !Scalar.isZero (score (e.soughtWords text) e.index id).total).map fun id =>
        (⟨id, score (e.soughtWords text) e.index id⟩ : Hit α)).mergeSort Hit.before) := by
  rw [h.search_eq]
  unfold scan found
  dsimp only
  split
  next hn => simp [soughtWords, hn]
  next hn =>
    rw [soughtWords, if_neg hn, List.filter_map, List.take_of_length_le]
    · rfl
    · have hm := List.length_filter_le (fun id => decide
        ((Query.parse text).Matches e.config.stopWords (e.tokens id))) e.index.documents.keys
      rw [Std.ExtTreeMap.length_keys] at hm
      rw [List.length_mergeSort, List.length_map]
      exact ((List.length_filter_le ..).trans hm).trans hl

theorem ids_mergeSort {α : Type} [Scalar α] (score : String → Score α) (ids : List String) :
    (((ids.map fun id => (⟨id, score id⟩ : Hit α)).mergeSort Hit.before).map Hit.id).Perm ids := by
  have hp := (List.mergeSort_perm (ids.map fun id => (⟨id, score id⟩ : Hit α)) Hit.before).map Hit.id
  simpa [Function.comp_def] using hp

/-- With room for all documents a search by term frequency finds those that match and are counted. -/
theorem Holds.search_byFrequency (h : e.Holds docs) (text : String) {limit : Nat}
    (hl : e.index.documents.size ≤ limit) :
    ∃ hits, e.search byFrequency text limit = .ok hits ∧
      (hits.map Hit.id).Perm (e.counted text) := by
  refine ⟨_, h.search_found byFrequency text hl, ?_⟩
  have hc : ((e.found text).filter fun id =>
      !Scalar.isZero (byFrequency (e.soughtWords text) e.index id).total) = e.counted text := by
    refine List.filter_congr fun id _ => ?_
    have hz : Scalar.isZero (byFrequency (e.soughtWords text) e.index id).total = true ↔
        ∀ word ∈ e.soughtWords text, e.index.termFrequency id word = 0 := isZero_termFrequencyScore
    rw [Bool.eq_iff_iff, decide_eq_true_eq, Bool.not_eq_true', ← Bool.not_eq_true, hz]
    simp only [not_forall, exists_prop, h.termFrequency, toNat_tally, ne_eq]
  rw [hc]
  exact ids_mergeSort _ _

end Engine

end Concordance

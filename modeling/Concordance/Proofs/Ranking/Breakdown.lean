import Concordance.Proofs.Index.Restored
import Concordance.Proofs.Ranking.Components
import Concordance.Proofs.Ranking.Real

/-!
The breakdown of a score by tokens.  Rankings by occurrences add up what a token contributes each time
it is listed, so the numbers of a breakdown add up to the score.  With saturation a token that is
listed again counts again in the score, and in the breakdown it replaces itself.
-/

namespace Concordance

section Lists

variable {γ : Type}

theorem foldl_skip {p q : String → Bool} (h : ∀ token, p token = true ↔ ¬ q token = true)
    (step : γ → String → γ) (start : γ) (tokens : List String) :
    tokens.foldl (fun x token => if p token then x else step x token) start =
      (tokens.filter q).foldl step start := by
  rw [List.foldl_filter]
  congr 1
  funext x token
  by_cases hq : q token = true
  · rw [if_neg fun hp => (h token).1 hp hq, if_pos hq]
  · rw [if_pos ((h token).2 hq), if_neg hq]

variable {f : String → ℝ} {tokens : List String}

theorem sum_map_dedup_le (h : ∀ token ∈ tokens, 0 < f token) :
    (tokens.dedup.map f).sum ≤ (tokens.map f).sum :=
  ((List.dedup_sublist tokens).map f).sum_le_sum fun x hx => by
    obtain ⟨token, hm, rfl⟩ := List.mem_map.1 hx
    exact (h token hm).le

theorem sum_map_dedup_eq_iff (h : ∀ token ∈ tokens, 0 < f token) :
    (tokens.dedup.map f).sum = (tokens.map f).sum ↔ tokens.Nodup := by
  induction tokens with
  | nil => simp
  | cons token tokens ih =>
    obtain ⟨hf, hr⟩ := List.forall_mem_cons.1 h
    rw [List.nodup_cons, List.map_cons, List.sum_cons]
    by_cases hm : token ∈ tokens
    · have hle := sum_map_dedup_le hr
      rw [List.dedup_cons_of_mem hm]
      simp only [hm, not_true_eq_false, false_and, iff_false]
      linarith
    · rw [List.dedup_cons_of_notMem hm, List.map_cons, List.sum_cons, add_right_inj, ih hr]
      simp only [hm, not_false_eq_true, true_and]

end Lists

/-- The listed tokens that the document of an identifier has; of documents that share it, the first. -/
def listedIn (docs : List Document) (id : String) (tokens : List String) : List String :=
  tokens.filter fun token => (documentOf? docs id).any (token ∈ ·.tokens)

theorem Index.Holds.filter_contains {index : Index} {docs : List Document} (h : index.Holds docs)
    (id : String) (tokens : List String) :
    tokens.filter (index.contains id) = listedIn docs id tokens :=
  List.filter_congr fun token _ => by
    rw [Bool.eq_iff_iff, h.contains_iff_documentOf?, Option.any_eq_true]
    simp only [decide_eq_true_eq]

/-- The listed tokens that are counted for a document. -/
def Index.counted (index : Index) (id : String) (tokens : List String) : List String :=
  tokens.filter fun token => index.termFrequency id token ≠ 0

theorem Index.mem_counted {index : Index} {id token : String} {tokens : List String} :
    token ∈ index.counted id tokens ↔ token ∈ tokens ∧ index.termFrequency id token ≠ 0 := by
  rw [counted, List.mem_filter, decide_eq_true_eq]

theorem Index.Holds.counted_eq {index : Index} {docs : List Document} (h : index.Holds docs)
    {id : String} (fit : ∀ d, documentOf? docs id = some d → CountsFit d.tokens)
    (tokens : List String) : index.counted id tokens = listedIn docs id tokens := by
  rw [← h.filter_contains]
  refine List.filter_congr fun token _ => ?_
  rw [Bool.eq_iff_iff, decide_eq_true_eq, h.termFrequency_ne_zero fit]

/-- Named numbers, one for each of these tokens, and the total that they add up to. -/
structure AddsUp (values : Named ℝ) (listed : List String) (total : ℝ) : Prop where
  names : ∀ token, token ∈ values ↔ token ∈ listed
  sum : (values.toList.map Prod.snd).sum = total

section Parts

noncomputable def addPart (part : String → ℝ) (score : Score ℝ) (token : String) : Score ℝ :=
  { score with
    total := score.total + part token
    components := addAt score.components token (part token) }

theorem sum_addPart (part : String → ℝ) {score : Score ℝ} (token : String)
    (h : (score.components.toList.map Prod.snd).sum = score.total) :
    ((addPart part score token).components.toList.map Prod.snd).sum =
      (addPart part score token).total := by
  show ((addAt score.components token (part token)).toList.map Prod.snd).sum = _
  rw [sum_addAt, h]
  rfl

theorem sum_foldl_addPart (part : String → ℝ) (tokens : List String) {score : Score ℝ}
    (h : (score.components.toList.map Prod.snd).sum = score.total) :
    ((tokens.foldl (addPart part) score).components.toList.map Prod.snd).sum =
      (tokens.foldl (addPart part) score).total := by
  induction tokens generalizing score with
  | nil => exact h
  | cons token tokens ih => exact ih (sum_addPart part token h)

theorem mem_foldl_addPart (part : String → ℝ) (tokens : List String) (score : Score ℝ)
    (token : String) : token ∈ (tokens.foldl (addPart part) score).components ↔
      token ∈ tokens ∨ token ∈ score.components := by
  induction tokens generalizing score with
  | nil => simp
  | cons first tokens ih =>
    rw [List.foldl_cons, ih]
    show _ ∨ token ∈ addAt score.components first (part first) ↔ _
    rw [mem_addAt, List.mem_cons, eq_comm (a := first)]
    tauto

theorem addsUp_foldl_addPart (part : String → ℝ) (listed : List String) :
    let score := listed.foldl (addPart part) ⟨Scalar.zero, ∅, ∅⟩
    AddsUp score.components listed score.total := by
  refine ⟨fun token => ?_, sum_foldl_addPart part _ ?_⟩
  · rw [mem_foldl_addPart]
    simp
  · have he : (∅ : Named ℝ).toList = [] := by simp
    rw [he, Scalar.zero_real]
    rfl

end Parts

section Occurrences

theorem addsUp_termFrequencyScore (index : Index) (id : String) (tokens : List String) :
    let score : Score ℝ := termFrequencyScore tokens index id
    AddsUp score.components (index.counted id tokens) score.total := by
  have hs : (termFrequencyScore tokens index id : Score ℝ) =
      (index.counted id tokens).foldl
        (addPart fun token => (index.termFrequency id token : ℝ)) ⟨Scalar.zero, ∅, ∅⟩ := by
    refine foldl_skip (p := fun token => index.termFrequency id token == 0) (fun token => ?_) _ _ _
    rw [beq_iff_eq, decide_eq_true_eq, not_not]
  rw [hs]
  exact addsUp_foldl_addPart _ _

variable {index : Index} {docs : List Document} (h : index.Holds docs) (hw : docs.length < 2 ^ 64)
  (id : String) (tokens : List String)
include h hw

theorem Index.Holds.uncounted_iff (token : String) :
    (index.docFreq token = 0 ∨ index.termFrequency id token = 0) ↔
      ¬ index.termFrequency id token ≠ 0 := by
  rw [not_not]
  refine or_iff_right_of_imp fun hd => ?_
  by_contra hn
  exact h.docFreq_ne_zero hw hn hd

theorem Index.Holds.addsUp_tfIdfScore :
    let score : Score ℝ := tfIdfScore tokens index id
    AddsUp score.components (index.counted id tokens) score.total := by
  have hs : (tfIdfScore tokens index id : Score ℝ) =
      (index.counted id tokens).foldl (addPart fun token =>
        (index.termFrequency id token : ℝ) * smoothIdf index.totalDocs (index.docFreq token))
        ⟨Scalar.zero, ∅, ∅⟩ := by
    refine foldl_skip (p := fun token => index.docFreq token == 0 || index.termFrequency id token == 0)
      (fun token => ?_) _ _ _
    rw [Bool.or_eq_true, beq_iff_eq, beq_iff_eq, decide_eq_true_eq]
    exact h.uncounted_iff hw id token
  rw [hs]
  exact addsUp_foldl_addPart _ _

end Occurrences

section Saturation

theorem getElem?_foldl_insert {β : Type} (f : String → β) (tokens : List String) (m : Named β)
    (token : String) : (tokens.foldl (fun m t => m.insert t (f t)) m)[token]? =
      if token ∈ tokens then some (f token) else m[token]? := by
  induction tokens generalizing m with
  | nil => simp
  | cons first tokens ih =>
    rw [List.foldl_cons, ih, Std.ExtTreeMap.getElem?_insert]
    by_cases hf : first = token
    · subst hf
      simp
    · simp [hf, Ne.symm hf]

/-- What each token of a breakdown is said to add. -/
noncomputable def Score.termScores (score : Score ℝ) : Named ℝ :=
  score.perTerm.map fun _ parts => parts.getD "score" 0

noncomputable def Saturation.entry (s : Saturation ℝ) (index : Index) (id token : String) :
    Named ℝ :=
  let tf : ℝ := Scalar.ofNat (index.termFrequency id token)
  let df : ℝ := Scalar.ofNat (index.docFreq token)
  let weight := idf (Scalar.ofNat index.totalDocs) df
  .ofList [("tf", tf), ("df", df), ("idf", weight), ("score", s.part (s.norm index id) weight tf)]
    compare

variable {index : Index} {docs : List Document} (h : index.Holds docs) (hw : docs.length < 2 ^ 64)
  (id : String) (tokens : List String) (s : Saturation ℝ)

theorem Saturation.share_eq_zero {token : String} (hz : index.termFrequency id token = 0) :
    s.share index id token = 0 := by
  rw [share, if_pos (.inl hz)]

theorem Saturation.score_total_filter {p : String → Bool}
    (hp : ∀ token, index.termFrequency id token ≠ 0 → p token = true) :
    (s.score tokens index id).total = ((tokens.filter p).map (s.share index id)).sum := by
  have hz : ∀ x ∈ (tokens.filter fun t => ¬ p t = true).map (s.share index id), x = 0 := fun x hx => by
    obtain ⟨t, ht, rfl⟩ := List.mem_map.1 hx
    have hn : ¬ p t = true := by simpa using (List.mem_filter.1 ht).2
    exact s.share_eq_zero id (not_not.1 (mt (hp t) hn))
  have hsplit := List.sum_map_filter_add_sum_map_filter_not (fun t => p t = true)
    (s.share index id) tokens
  rw [List.sum_eq_zero hz, add_zero] at hsplit
  rw [s.score_total, ← hsplit]
  simp

theorem Saturation.score_total_counted : (s.score tokens index id).total =
    ((index.counted id tokens).map (s.share index id)).sum :=
  s.score_total_filter id tokens fun _ hn => decide_eq_true hn

include h hw

theorem Index.Holds.perTerm_eq : (s.score tokens index id).perTerm =
    (index.counted id tokens).foldl (fun m t => m.insert t (s.entry index id t)) ∅ := by
  unfold Saturation.score
  dsimp only
  rw [foldl_skip (p := fun token => index.termFrequency id token == 0 || index.docFreq token == 0)
    (q := fun token => index.termFrequency id token ≠ 0)]
  · exact (List.foldl_hom Score.perTerm fun _ _ => rfl).symm
  · intro token
    rw [Bool.or_eq_true, beq_iff_eq, beq_iff_eq, decide_eq_true_eq, or_comm]
    exact h.uncounted_iff hw id token

theorem Index.Holds.share_eq_part {token : String} (hn : index.termFrequency id token ≠ 0) :
    s.share index id token = s.part (s.norm index id)
      (Saturation.idf index.totalDocs (index.docFreq token)) (index.termFrequency id token) := by
  rw [Saturation.share, if_neg (not_or.2 ⟨hn, h.docFreq_ne_zero hw hn⟩)]

theorem Index.Holds.share_eq {token : String} (hn : index.termFrequency id token ≠ 0) :
    (s.entry index id token).getD "score" 0 = s.share index id token := by
  rw [h.share_eq_part hw id s hn]
  rfl

theorem Index.Holds.getElem?_termScores (token : String) :
    (s.score tokens index id).termScores[token]? =
      if token ∈ index.counted id tokens then some (s.share index id token) else none := by
  rw [Score.termScores, Std.ExtTreeMap.getElem?_map, h.perTerm_eq hw, getElem?_foldl_insert]
  split
  next hm => rw [Option.map_some, h.share_eq hw id s (mem_counted.1 hm).2]
  next => simp

/-- A breakdown shows each token of the document once. -/
theorem Index.Holds.termScores_perm : (s.score tokens index id).termScores.toList.Perm
    ((index.counted id tokens).dedup.map fun t => (t, s.share index id t)) := by
  have hn := (List.nodup_dedup (index.counted id tokens)).map
    (f := fun t => (t, s.share index id t)) fun a b hab => congrArg Prod.fst hab
  refine (List.perm_ext_iff_of_nodup (nodup_keys_toList _).of_map hn).2 fun ⟨token, x⟩ => ?_
  rw [Std.ExtTreeMap.mem_toList_iff_getElem?_eq_some, h.getElem?_termScores hw,
    Option.ite_none_right_eq_some, List.mem_map]
  simp only [List.mem_dedup, Prod.mk.injEq]
  constructor
  · rintro ⟨hm, hx⟩
    exact ⟨token, hm, rfl, Option.some.inj hx⟩
  · rintro ⟨t, hm, rfl, rfl⟩
    exact ⟨hm, rfl⟩

theorem Index.Holds.addsUp_termScores :
    AddsUp (s.score tokens index id).termScores (index.counted id tokens)
      (s.score tokens.dedup index id).total where
  names token := by
    rw [Std.ExtTreeMap.mem_iff_isSome_getElem?, h.getElem?_termScores hw]
    split <;> simp_all
  sum := by
    have hp : (index.counted id tokens).dedup.Perm (index.counted id tokens.dedup) := by
      refine (List.perm_ext_iff_of_nodup (List.nodup_dedup _) ((List.nodup_dedup _).filter _)).2 ?_
      simp [counted]
    rw [((h.termScores_perm hw id tokens s).map Prod.snd).sum_eq, s.score_total_counted,
      ← (hp.map (s.share index id)).sum_eq, List.map_map]
    rfl

theorem Index.Holds.addsUp_termScores_iff {s : Saturation ℝ} (hs : s.Admissible) :
    let score := s.score tokens index id
    AddsUp score.termScores (index.counted id tokens) score.total ↔
      (index.counted id tokens).Nodup := by
  intro score
  have hd := h.addsUp_termScores hw id tokens s
  have hsum : (index.counted id tokens).Nodup ↔
      (score.termScores.toList.map Prod.snd).sum = score.total := by
    rw [← sum_map_dedup_eq_iff (f := s.share index id) fun t ht =>
        h.share_pos hw hs (mem_counted.1 ht).2,
      ((h.termScores_perm hw id tokens s).map Prod.snd).sum_eq, s.score_total_counted, List.map_map]
    rfl
  exact ⟨fun ha => hsum.2 ha.sum, fun hn => ⟨hd.names, hsum.1 hn⟩⟩

end Saturation

/-- In an index of documents added one after another, each breakdown names the listed tokens that the
document has, if its counts fit their words.  Rankings by occurrences break their scores down so that
the parts add up, however often a token is listed; with saturation the parts add up to the score of the
tokens listed once, which is the score itself exactly if no token of the document is listed again. -/
theorem Index.breakdowns_add_up (docs : List Document)
    (few : (({} : Index).offerAll docs).documents.size < 2 ^ 64) {id : String}
    (fit : ∀ d, documentOf? docs id = some d → CountsFit d.tokens) (tokens : List String) :
    let index := ({} : Index).offerAll docs
    let listed := listedIn docs id tokens
    let plain : Score ℝ := termFrequencyScore tokens index id
    let weighted : Score ℝ := tfIdfScore tokens index id
    AddsUp plain.components listed plain.total ∧
    AddsUp weighted.components listed weighted.total ∧
    ∀ s : Saturation ℝ,
      let score := s.score tokens index id
      AddsUp score.termScores listed (s.score tokens.dedup index id).total ∧
      (s.Admissible → (AddsUp score.termScores listed score.total ↔ listed.Nodup)) := by
  intro index listed plain weighted
  obtain ⟨held, h, hs⟩ := Index.holds_nil.offerAll docs
  have hw : held.length < 2 ^ 64 := by rwa [← h.size_documents]
  have hl : index.counted id tokens = listed := by
    have hd : documentOf? held id = documentOf? docs id := hs id
    rw [h.counted_eq (by rwa [hd]), listedIn, hd]
    rfl
  rw [← hl]
  exact ⟨addsUp_termFrequencyScore index id tokens, h.addsUp_tfIdfScore hw id tokens, fun s =>
    ⟨h.addsUp_termScores hw id tokens s, h.addsUp_termScores_iff hw id tokens⟩⟩

theorem Index.breakdowns_add_up_fox :
    let docs : List Document :=
      [⟨"1", ["fox", "fox", "dog"], ∅⟩, ⟨"1", ["cat"], ∅⟩, ⟨"2", ["fox", "cat"], ∅⟩]
    let index := ({} : Index).offerAll docs
    let tokens := ["fox", "cat", "dog", "fox"]
    let plain : Score ℝ := termFrequencyScore tokens index "1"
    let s : Saturation ℝ := ⟨1, 0⟩
    let score := s.score tokens index "1"
    index.documents.size < 2 ^ 64 ∧ s.Admissible ∧
      (∀ d, documentOf? docs "1" = some d → CountsFit d.tokens) ∧
      AddsUp plain.components ["fox", "dog", "fox"] plain.total ∧
      AddsUp score.termScores ["fox", "dog", "fox"] (s.score ["cat", "dog", "fox"] index "1").total ∧
      ¬ AddsUp score.termScores ["fox", "dog", "fox"] score.total := by
  intro docs index tokens plain s score
  have few : index.documents.size < 2 ^ 64 := by decide +kernel
  have hs : s.Admissible := ⟨zero_le_one, le_rfl, zero_le_one⟩
  have fit : ∀ d, documentOf? docs "1" = some d → CountsFit d.tokens := by
    rintro d ⟨⟩
    decide
  have hl : listedIn docs "1" tokens = ["fox", "dog", "fox"] := by decide +kernel
  have hd : tokens.dedup = ["cat", "dog", "fox"] := by decide +kernel
  obtain ⟨hplain, -, hsat⟩ := Index.breakdowns_add_up docs few fit tokens
  obtain ⟨hscore, hiff⟩ := hsat s
  rw [hl] at hplain hscore hiff
  rw [hd] at hscore
  exact ⟨few, hs, fit, hplain, hscore, fun ha => absurd ((hiff hs).1 ha) (by decide +kernel)⟩

/-- One token that is listed twice counts twice in the score and once in the breakdown. -/
theorem Saturation.breakdown_misses_repetition :
    let index := ({} : Index).offerAll [⟨"1", ["fox"], ∅⟩]
    let score := (standard : Saturation ℝ).score ["fox", "fox"] index "1"
    score.total = 2 * Real.log (4 / 3) ∧
      score.termScores.toList = [("fox", Real.log (4 / 3))] ∧
      ¬ AddsUp score.termScores ["fox", "fox"] score.total := by
  intro index score
  let docs : List Document := [⟨"1", ["fox"], ∅⟩]
  have h : index.Holds docs := Index.holds_nil.insert ⟨"1", ["fox"], ∅⟩ (by simp)
  have hw : docs.length < 2 ^ 64 := by decide +kernel
  have hf : index.counted "1" ["fox", "fox"] = ["fox", "fox"] := by decide +kernel
  have hnorm : (standard : Saturation ℝ).norm index "1" = 1 := by
    have hlength : index.docLength? "1" = some 1 := by decide +kernel
    have haverage : (index.stats.averageLength : ℝ) = 1 := by
      show ((1 : Nat) : ℝ) / ((1 : Nat) : ℝ) = 1
      simp
    rw [norm_real, hlength, haverage]
    simp
  have hshare : (standard : Saturation ℝ).share index "1" "fox" = Real.log (4 / 3) := by
    have htf : index.termFrequency "1" "fox" = 1 := by decide +kernel
    have hdf : index.docFreq "fox" = 1 := by decide +kernel
    have htotal : index.totalDocs = 1 := by decide +kernel
    have hk : (standard : Saturation ℝ).k1 = 3 / 2 := rfl
    rw [share, htf, hdf, htotal, if_neg (by decide), part_real, hnorm, idf_real, hk]
    norm_num
  have htotal : score.total = 2 * Real.log (4 / 3) := by
    rw [Saturation.score_total]
    simp only [List.map_cons, List.map_nil, hshare, List.sum_cons, List.sum_nil]
    ring
  have hscores : score.termScores.toList = [("fox", Real.log (4 / 3))] := by
    have hp := h.termScores_perm hw "1" ["fox", "fox"] standard
    have hd : ["fox", "fox"].dedup = ["fox"] := by decide +kernel
    rw [hf, hd, List.map_singleton, hshare] at hp
    exact List.perm_singleton.1 hp
  refine ⟨htotal, hscores, fun ha => ?_⟩
  have hpos : 0 < Real.log (4 / 3) := Real.log_pos (by norm_num)
  have hsum := ha.sum
  rw [hscores, htotal, List.map_singleton, List.sum_singleton] at hsum
  linarith

end Concordance

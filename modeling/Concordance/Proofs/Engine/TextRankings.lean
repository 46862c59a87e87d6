import Concordance.Proofs.Engine.Found
import Concordance.Proofs.Ranking.Real

namespace Concordance

namespace Engine

variable {β σ : Type} {react : React (StateM σ) β} {e : Engine β}

/-- Read over the reals, all rankings by terms find the documents that match, all of them, and score
each above zero.  For every token of a document its weights are above zero, and nothing is divided by
zero.  The limit is a word, and the counts of tokens fit theirs. -/
theorem search_textual (h : e.Grown react) (fit : e.CountsFit) (text : String) {limit : Nat}
    (hl : e.index.documents.size ≤ limit) (hw : limit < 2 ^ 64) {ranking : Ranking ℝ}
    (hr : ranking.IsTextual) :
    ∃ hits, e.search ranking.scorer text limit = .ok hits ∧
      (hits.map Hit.id).Perm (e.found text) ∧ (∀ hit ∈ hits, 0 < hit.score.total) ∧
      ∀ id token, e.index.contains id token = true → e.index.Weighs id token := by
  obtain ⟨docs, hd⟩ := h.holds
  have hdocs : docs.length < 2 ^ 64 := by
    rw [← hd.holds_index.size_documents]
    exact hl.trans_lt hw
  have hcounted : ∀ {id token : String}, e.index.contains id token = true →
      e.index.termFrequency id token ≠ 0 := (hd.termFrequency_ne_zero fit).2
  have hpos : ∀ id ∈ e.found text,
      0 < (ranking.scorer (e.soughtWords text) e.index id).total := fun id hf => by
    obtain ⟨word, hw, hm⟩ := exists_soughtWord hf
    exact hr.total_pos hd.holds_index hdocs ⟨word, hw, hcounted ((hd.contains id word).2 hm)⟩
  have hnone : (e.found text).filter (fun id =>
      !Scalar.isZero (ranking.scorer (e.soughtWords text) e.index id).total) = e.found text := by
    refine List.filter_eq_self.2 fun id hf => ?_
    rw [Bool.not_eq_true', Bool.eq_false_iff]
    exact fun hz => (hpos id hf).ne' (Scalar.isZero_real.1 hz)
  have hs := hd.search_found ranking.scorer text hl
  rw [hnone] at hs
  refine ⟨_, hs, ids_mergeSort _ _, fun hit hm => ?_,
    fun id token hc => hd.holds_index.weighs hdocs (hcounted hc)⟩
  obtain ⟨id, hf, rfl⟩ := List.mem_map.1 ((List.mergeSort_perm _ _).mem_iff.1 hm)
  exact hpos id hf

theorem search_textual_foxes :
    let fox : Record :=
      .ofList [("id", Json.str "1"), ("text", Json.str "The quick red fox")] compare
    let hen : Record := .ofList [("id", Json.str "2"), ("text", Json.str "a red hen")] compare
    let ranking : Ranking ℝ := .bm25 ⟨6 / 5, 0⟩
    ∃ e : Engine Unit, Engine.ofRecords [fox, hen] {} = .ok e ∧
      e.Grown (σ := Unit) (fun _ _ => pure ((), .ok ())) ∧ e.CountsFit ∧
      e.index.documents.size ≤ 2 ∧ 2 < 2 ^ 64 ∧ ranking.IsTextual ∧
      ∃ hits, e.search ranking.scorer "\"quick red\" -hen" 2 = .ok hits ∧
        (hits.map Hit.id).Perm (e.found "\"quick red\" -hen") ∧
        (∀ hit ∈ hits, 0 < hit.score.total) ∧
        ∀ id token, e.index.contains id token = true → e.index.Weighs id token := by
  intro fox hen ranking
  obtain ⟨e, he, hok⟩ : ∃ e : Engine Unit, Engine.ofRecords [fox, hen] {} = .ok e ∧
      decide (e.CountsFit ∧ e.index.documents.size ≤ 2) = true :=
    Result.exists_of_any (by decide +kernel)
  obtain ⟨fit, hl⟩ := of_decide_eq_true hok
  have hg : e.Grown (σ := Unit) (fun _ _ => pure ((), .ok ())) := .ofRecords he
  have hr : ranking.IsTextual := .bm25 ⟨by norm_num, by norm_num, by norm_num⟩
  exact ⟨e, he, hg, fit, hl, by norm_num, hr, search_textual hg fit _ hl (by norm_num) hr⟩

end Engine

end Concordance

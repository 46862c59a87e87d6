import Concordance.Proofs.Engine.Found
import Concordance.Proofs.Ranking.Recency

namespace Concordance

theorem Scalar.rankedBy_real : Scalar.RankedBy (id : ℝ → ℝ) := fun _ _ => rfl

/-- Dates put the first of two documents before the second: it has a date if the second has one, and
if both have one and neither is a leap second it is younger, or as old with the smaller identifier. -/
structure Recency.Orders (now : Instant) (index : Index) (id other : String) : Prop where
  dated : (timestamp? index other).isSome = true → (timestamp? index id).isSome = true
  younger : ∀ s t, timestamp? index id = some s → timestamp? index other = some t →
    s.isLeap = false → t.isLeap = false →
    now.age s < now.age t ∨ now.age s = now.age t ∧ compare id other = .lt

theorem Recency.orders_of_total {r : Recency ℝ} (hd : 0 < r.decayDays) (hb : 0 < r.maxBoost)
    (hn : r.now.isLeap = false) {tokens : List String} {index : Index} {id other : String}
    (h : (r.score tokens index other).total < (r.score tokens index id).total ∨
      (r.score tokens index other).total = (r.score tokens index id).total ∧
        compare id other = .lt) :
    Orders r.now index id other := by
  have hle : (r.score tokens index other).total ≤ (r.score tokens index id).total :=
    h.elim le_of_lt fun he => he.1.le
  rw [score_total, score_total] at hle h
  refine ⟨fun ho => ?_, fun s t hs ht hsl htl => ?_⟩
  · obtain ⟨t, ht⟩ := Option.isSome_iff_exists.1 ho
    by_contra hi
    rw [Option.not_isSome_iff_eq_none.1 hi, ht] at hle
    exact absurd hle (boost_pos hb t).not_ge
  · rw [hs, ht] at h
    rw [← ageMillis_eq_age hn hsl, ← ageMillis_eq_age hn htl, Int.ofNat_lt, Int.ofNat_inj]
    rcases h with hlt | ⟨heq, hc⟩
    · exact .inl ((boost_lt_boost hd hb).1 hlt)
    · exact .inr ⟨((boost_inj hd hb).1 heq).symm, hc⟩

namespace Engine

variable {β σ : Type} {e : Engine β}

theorem score_of_mem_scan {α : Type} [Scalar α] {score : Scorer α} {text : String} {limit : Nat}
    {hit : Hit α} (h : hit ∈ e.scan score text limit) :
    hit.score = score (e.soughtWords text) e.index hit.id := by
  unfold scan at h
  dsimp only at h
  split at h
  · cases h
  · have hm := (List.mergeSort_perm _ _).mem_iff.1 (List.mem_of_mem_take h)
    obtain ⟨id, -, rfl⟩ := List.mem_map.1 (List.mem_filter.1 hm).1
    rfl

/-- Read over the reals, a search with a boost by date gives hits of which any two whose texts score
alike stand in the order of their dates, whatever rankings are summed up and however they are weighted;
and every boost lies between zero and the full one. -/
theorem search_by_date {react : React (StateM σ) β} (h : e.Grown react)
    (parts : List (ℝ × Ranking ℝ)) {r : Recency ℝ} (hd : 0 < r.decayDays) (hb : 0 < r.maxBoost)
    (hn : r.now.isLeap = false) (text : String) (limit : Nat) :
    let tokens := e.soughtWords text
    let byText : Ranking ℝ := .fusion parts
    let ranking : Ranking ℝ := .composite parts (some r)
    (∀ id, 0 ≤ (r.score tokens e.index id).total ∧
      (r.score tokens e.index id).total ≤ r.maxBoost) ∧
    ∃ hits, e.search ranking.scorer text limit = .ok hits ∧
      hits.Pairwise fun a b =>
        (byText.scorer tokens e.index a.id).total = (byText.scorer tokens e.index b.id).total →
        Recency.Orders r.now e.index a.id b.id := by
  intro tokens byText ranking
  obtain ⟨docs, hdocs⟩ := h.holds
  have htotal : ∀ hit ∈ e.scan ranking.scorer text limit, hit.score.total =
      (byText.scorer tokens e.index hit.id).total + (r.score tokens e.index hit.id).total := by
    intro hit hm
    rw [score_of_mem_scan hm, Ranking.scorer, Ranking.score, Ranking.scorer, Ranking.score]
    rfl
  refine ⟨Recency.score_bounds hd hb tokens e.index, _, hdocs.search_eq ranking.scorer text limit, ?_⟩
  have hp := e.scan_pairwise Scalar.rankedBy_real ranking.scorer text limit
  refine hp.imp_of_mem fun {a b} hfirst hsecond hab htext => ?_
  have hfirst := htotal a hfirst
  have hsecond := htotal b hsecond
  have hboost : (r.score tokens e.index b.id).total < (r.score tokens e.index a.id).total ∨
      (r.score tokens e.index b.id).total = (r.score tokens e.index a.id).total ∧
        compare a.id b.id = .lt := by
    rcases hab with hlt | ⟨heq, hc⟩
    · have hlt : b.score.total < a.score.total := compare_lt_iff_lt.1 hlt
      exact .inl (by linarith)
    · have heq : b.score.total = a.score.total := compare_eq_iff_eq.1 heq
      exact .inr ⟨by linarith, hc⟩
  exact Recency.orders_of_total hd hb hn hboost

theorem search_by_date_foxes :
    let fox : Record := .ofList [("id", Json.str "1"), ("text", Json.str "red fox"),
      ("timestamp", Json.str "2024-01-01")] compare
    let hen : Record := .ofList [("id", Json.str "2"), ("text", Json.str "red hen"),
      ("timestamp", Json.str "2024-02-01T01:00:00+01:00")] compare
    let cat : Record := .ofList [("id", Json.str "3"), ("text", Json.str "red cat")] compare
    let parts : List (ℝ × Ranking ℝ) := [(2, .tfIdf), (1, .termFrequency)]
    let r : Recency ℝ := .standard ⟨1709251200, 0⟩
    ∃ e : Engine Unit, Engine.ofRecords [fox, hen, cat] {} = .ok e ∧
      e.Grown (σ := Unit) (fun _ _ => pure ((), .ok ())) ∧
      0 < r.decayDays ∧ 0 < r.maxBoost ∧ r.now.isLeap = false ∧
      Recency.timestamp? e.index "1" = some ⟨1704067200, 0⟩ ∧
      Recency.timestamp? e.index "2" = some ⟨1706745600, 0⟩ ∧
      Recency.timestamp? e.index "3" = none ∧
      ∃ hits, e.search (Ranking.composite parts (some r)).scorer "red" 10 = .ok hits ∧
        hits.Pairwise fun a b =>
          ((Ranking.fusion parts).scorer (e.soughtWords "red") e.index a.id).total =
            ((Ranking.fusion parts).scorer (e.soughtWords "red") e.index b.id).total →
          Recency.Orders r.now e.index a.id b.id := by
  intro fox hen cat parts r
  obtain ⟨e, he, hok⟩ : ∃ e : Engine Unit, Engine.ofRecords [fox, hen, cat] {} = .ok e ∧
      decide (Recency.timestamp? e.index "1" = some ⟨1704067200, 0⟩ ∧
        Recency.timestamp? e.index "2" = some ⟨1706745600, 0⟩ ∧
        Recency.timestamp? e.index "3" = none) = true :=
    Result.exists_of_any (by decide +kernel)
  obtain ⟨hfox, hhen, hcat⟩ := of_decide_eq_true hok
  have hg : e.Grown (σ := Unit) (fun _ _ => pure ((), .ok ())) := .ofRecords he
  have hd : 0 < r.decayDays := show (0 : ℝ) < (30 : Nat) by norm_num
  have hb : 0 < r.maxBoost := one_pos.trans_eq Scalar.one_real.symm
  exact ⟨e, he, hg, hd, hb, rfl, hfox, hhen, hcat,
    (search_by_date hg parts hd hb rfl "red" 10).2⟩

end Engine

end Concordance

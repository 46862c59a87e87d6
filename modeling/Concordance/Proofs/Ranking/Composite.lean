import Concordance.Proofs.Ranking.Components
import Concordance.Proofs.Ranking.Keys

/-!
What the components of a weighted sum account for.  Without a booster they are the shares of its parts
under distinct keys.  A booster writes its boost under `recency`, over the share of a part that has
this key already.
-/

namespace Concordance

/-- Numbers under distinct names: one for each share, one under `recency` for the boost if there is
one, and nothing else.  Names are distinct in every map. -/
def Accounts {α : Type} (components : Named α) (shares : List α) (boost : Option α) : Prop :=
  ∃ entries : List (String × α), entries.map Prod.snd = shares ∧
    components.toList.Perm (entries ++ boost.toList.map fun b => ("recency", b))

section Accounts

theorem Accounts.length {α : Type} {components : Named α} {shares : List α} {boost : Option α}
    (h : Accounts components shares boost) :
    components.toList.length = shares.length + boost.toList.length := by
  obtain ⟨entries, rfl, hp⟩ := h
  simpa using hp.length_eq

theorem Accounts.sum {components : Named ℝ} {shares : List ℝ} {boost : Option ℝ}
    (h : Accounts components shares boost) :
    (components.toList.map Prod.snd).sum = shares.sum + boost.getD 0 := by
  obtain ⟨entries, rfl, hp⟩ := h
  rw [(hp.map Prod.snd).sum_eq]
  cases boost <;> simp

end Accounts

namespace Ranking

section Shadowed

variable {α : Type} {parts : List (α × Ranking α)} {booster : Option (Recency α)}

/-- The part whose share the boost replaces, if there is a boost: the first that ranks by date. -/
def shadowed? (parts : List (α × Ranking α)) (booster : Option (Recency α)) :
    Option (α × Ranking α) :=
  booster.bind fun _ => parts.find? byDate

def unshadowed (parts : List (α × Ranking α)) : Option (Recency α) → List (α × Ranking α)
  | none => parts
  | some _ => parts.eraseP byDate

theorem unshadowed_eq_self (h : booster = none ∨ ∀ part ∈ parts, part.2.name ≠ "recency") :
    unshadowed parts booster = parts := by
  cases booster with
  | none => rfl
  | some r =>
    have hn := h.resolve_left nofun
    exact List.eraseP_of_forall_not fun part hm hd => hn part hm (byDate_iff.1 hd)

theorem length_unshadowed_lt (h : ¬ (booster = none ∨ ∀ part ∈ parts, part.2.name ≠ "recency")) :
    (unshadowed parts booster).length < parts.length := by
  cases booster with
  | none => exact absurd (.inl rfl) h
  | some r =>
    obtain ⟨part, hm, hn⟩ : ∃ part ∈ parts, part.2.name = "recency" := by simpa using h
    have hpos := List.length_pos_of_mem hm
    rw [unshadowed, List.length_eraseP_of_mem hm (byDate_iff.2 hn)]
    omega

end Shadowed

variable {α : Type} [Scalar α] (tokens : List String) (index : Index) (id : String)

def share (part : α × Ranking α) : α := part.1 * (score tokens index id part.2).total

theorem partScores_eq_map (parts : List (α × Ranking α)) : partScores tokens index id parts =
    parts.map fun part => (part.1, score tokens index id part.2) := by
  induction parts with
  | nil => rw [partScores, List.map_nil]
  | cons part parts ih => rw [partScores, ih, List.map_cons]

def entries (parts : List (α × Ranking α)) : List (String × α) :=
  (keyed parts).map fun part => (part.1, share tokens index id part.2)

variable (parts : List (α × Ranking α))

theorem map_snd_entries :
    (entries tokens index id parts).map Prod.snd = parts.map (share tokens index id) := by
  conv_rhs => rw [← map_snd_keyed parts]
  rw [entries, List.map_map, List.map_map]
  rfl

theorem foldl_weightedSum {γ : Type} (f : Score α → γ) (g : γ → String × α → γ)
    (h : ∀ sum share, g (f sum) (share.1, share.2.1 * share.2.2.total) = f (addShare sum share)) :
    f (weightedSum (keys parts) (partScores tokens index id parts)) =
      (entries tokens index id parts).foldl g (f ⟨Scalar.zero, ∅, ∅⟩) := by
  unfold weightedSum entries keyed
  rw [partScores_eq_map, List.zip_map_right, List.foldl_map, List.foldl_map]
  exact (List.foldl_hom f fun sum part => h sum (part.1, part.2.1, _)).symm

theorem weightedSum_components_perm :
    (weightedSum (keys parts) (partScores tokens index id parts)).components.toList.Perm
      (entries tokens index id parts) := by
  rw [foldl_weightedSum tokens index id parts Score.components (fun m e => m.insert e.1 e.2)
    fun _ _ => rfl]
  refine toList_foldl_insert_perm ?_
  have hk : (entries tokens index id parts).map Prod.fst = keys parts := by
    rw [entries, List.map_map, ← map_fst_keyed]
    rfl
  rw [hk]
  exact nodup_keys parts

theorem weightedSum_total (parts : List (ℝ × Ranking ℝ)) :
    (weightedSum (keys parts) (partScores tokens index id parts)).total =
      (parts.map (share tokens index id)).sum := by
  rw [foldl_weightedSum tokens index id parts Score.total (fun total e => total + e.2)
    fun _ _ => rfl, ← map_snd_entries, List.sum_eq_foldl, List.foldl_map]
  exact congrArg (fun zero => List.foldl _ zero _) Scalar.zero_real

theorem map_snd_filter_entries :
    ((entries tokens index id parts).filter (·.1 != "recency")).map Prod.snd =
      (parts.eraseP byDate).map (share tokens index id) := by
  conv_rhs => rw [← map_snd_keyed parts, List.eraseP_map, List.map_map]
  rw [entries, List.filter_map, List.map_map]
  exact congrArg (List.map _) (filter_keyed parts)

/-- The components of a composite account for the shares of all parts but the one that the boost
replaces. -/
theorem accounts_unshadowed (booster : Option (Recency α)) :
    Accounts (score tokens index id (.composite parts booster)).components
      ((unshadowed parts booster).map (share tokens index id))
      (booster.map fun r => (r.score tokens index id).total) := by
  have hp := weightedSum_components_perm tokens index id parts
  cases booster with
  | none =>
    rw [score]
    exact ⟨_, map_snd_entries tokens index id parts, by simpa using hp⟩
  | some r =>
    rw [score]
    refine ⟨_, map_snd_filter_entries tokens index id parts, (toList_insert_perm ..).trans ?_⟩
    exact ((hp.filter _).cons _).trans (List.perm_append_singleton _ _).symm

theorem accounts_iff {parts : List (α × Ranking α)} {booster : Option (Recency α)} :
    Accounts (score tokens index id (.composite parts booster)).components
      (parts.map (share tokens index id)) (booster.map fun r => (r.score tokens index id).total) ↔
      booster = none ∨ ∀ part ∈ parts, part.2.name ≠ "recency" := by
  have hu := accounts_unshadowed tokens index id parts booster
  refine ⟨fun ha => ?_, fun h => by rwa [unshadowed_eq_self h] at hu⟩
  by_contra h
  have hlt := length_unshadowed_lt h
  have hl := ha.length.symm.trans hu.length
  simp only [List.length_map] at hl
  omega

section Sums

variable (parts : List (ℝ × Ranking ℝ)) (booster : Option (Recency ℝ))

theorem composite_total : (score tokens index id (.composite parts booster)).total =
    (parts.map (share tokens index id)).sum +
      (booster.map fun r => (r.score tokens index id).total).getD 0 := by
  cases booster with
  | none =>
    rw [score, weightedSum_total]
    exact (add_zero _).symm
  | some r =>
    rw [score, ← weightedSum_total]
    rfl

theorem sum_unshadowed : (parts.map (share tokens index id)).sum =
    ((unshadowed parts booster).map (share tokens index id)).sum +
      ((shadowed? parts booster).map (share tokens index id)).getD 0 := by
  cases booster with
  | none => simp [unshadowed, shadowed?]
  | some r =>
    show _ = ((parts.eraseP byDate).map _).sum + ((parts.find? byDate).map _).getD 0
    induction parts with
    | nil => simp
    | cons part parts ih =>
      by_cases hn : byDate part = true
      · rw [List.eraseP_cons_of_pos hn, List.find?_cons_of_pos hn, List.map_cons, List.sum_cons,
          add_comm]
        rfl
      · rw [List.eraseP_cons_of_neg hn, List.find?_cons_of_neg hn, List.map_cons, List.sum_cons, ih,
          List.map_cons, List.sum_cons, add_assoc]

end Sums

/-- The components of a composite account for the shares of all its parts and for the boost, under
distinct keys, exactly if it has no booster or no part that ranks by date; else the boost replaces the
share of the first such part.  Without rounding they add up to the score less what is replaced. -/
theorem composite_accounts_iff (tokens : List String) (index : Index) (id : String) :
    (∀ {α : Type} [Scalar α] (parts : List (α × Ranking α)) (booster : Option (Recency α)),
      let components := (score tokens index id (.composite parts booster)).components
      let boost := booster.map fun r => (r.score tokens index id).total
      (Accounts components (parts.map (share tokens index id)) boost ↔
        booster = none ∨ ∀ part ∈ parts, part.2.name ≠ "recency") ∧
      Accounts components ((unshadowed parts booster).map (share tokens index id)) boost) ∧
    ∀ (parts : List (ℝ × Ranking ℝ)) (booster : Option (Recency ℝ)),
      let sum := score tokens index id (.composite parts booster)
      sum.total = (sum.components.toList.map Prod.snd).sum +
        ((shadowed? parts booster).map (share tokens index id)).getD 0 := by
  refine ⟨fun parts booster =>
    ⟨accounts_iff tokens index id, accounts_unshadowed tokens index id parts booster⟩, ?_⟩
  intro parts booster sum
  rw [(accounts_unshadowed tokens index id parts booster).sum, composite_total,
    sum_unshadowed tokens index id parts booster]
  exact add_right_comm ..

theorem recency_total_of_now {r : Recency ℝ} {index : Index} {id : String}
    (h : Recency.timestamp? index id = some r.now) :
    (r.score tokens index id).total = r.maxBoost := by
  have hage : r.ageMillis r.now = 0 := by
    simp [Recency.ageMillis, Instant.millisSince, Instant.nanosSince, Instant.leapBetween]
  have hb : r.boost r.now = r.maxBoost * Real.exp (-((0 : Nat) / (1000 : Nat) / (86400 : Nat)) /
      r.decayDays) := by
    rw [Recency.boost, hage]
    rfl
  show ((Recency.timestamp? index id).map r.boost).getD _ = _
  rw [h, Option.map_some, Option.getD_some, hb]
  simp

/-- A part that ranks by date has a share of three, and of a score of five only the boost of two is
kept. -/
theorem composite_loses_share :
    let dated : Record := .ofList [("timestamp", .str "1970-01-01")] compare
    let part : ℝ × Ranking ℝ := (3, .recency ⟨1, 1, ⟨0, 0⟩⟩)
    let booster : Recency ℝ := ⟨1, 2, ⟨0, 0⟩⟩
    ∃ index : Index, Index.add {} "1" ["fox"] dated = .ok index ∧
      let sum := score ["fox"] index "1" (.composite [part] (some booster))
      share ["fox"] index "1" part = 3 ∧ (booster.score ["fox"] index "1").total = 2 ∧
      sum.total = 5 ∧ sum.components.toList = [("recency", 2)] ∧
      ¬ Accounts sum.components [3] (some 2) := by
  intro dated part booster
  refine ⟨_, rfl, ?_⟩
  intro sum
  have ht : Recency.timestamp? (Index.insert {} "1" ["fox"] dated) "1" = some ⟨0, 0⟩ := by
    decide +kernel
  have hs : share ["fox"] (Index.insert {} "1" ["fox"] dated) "1" part = 3 := by
    rw [share, score, recency_total_of_now _ ht]
    exact mul_one 3
  have hb : (booster.score ["fox"] (Index.insert {} "1" ["fox"] dated) "1").total = 2 :=
    recency_total_of_now _ ht
  have hc : Accounts sum.components [] (some 2) := by
    have hu := accounts_unshadowed ["fox"] (Index.insert {} "1" ["fox"] dated) "1" [part]
      (some booster)
    rwa [Option.map_some, hb] at hu
  refine ⟨hs, hb, ?_, ?_, fun ha => ?_⟩
  · rw [composite_total]
    simp only [List.map_cons, List.map_nil, hs, Option.map_some, hb]
    norm_num
  · obtain ⟨entries, he, hp⟩ := hc
    rw [List.map_eq_nil_iff.1 he] at hp
    simpa using hp
  · simpa using ha.length.symm.trans hc.length

end Ranking

end Concordance

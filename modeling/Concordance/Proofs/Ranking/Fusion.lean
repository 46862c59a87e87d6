import Concordance.Proofs.Ranking.Composite

namespace Concordance

namespace Ranking

variable {α : Type}

theorem partsOf_eq_ok {rankings : List (Ranking α)} {weights : List α}
    (h : rankings.length = weights.length) : partsOf rankings weights = .ok (weights.zip rankings) :=
  if_neg (by simpa using h)

section Score

variable [Scalar α] (tokens : List String) (index : Index) (id : String)

theorem size_fusion (parts : List (α × Ranking α)) :
    (score tokens index id (.fusion parts)).components.size = parts.length := by
  rw [score, ← Std.ExtTreeMap.length_toList,
    (weightedSum_components_perm tokens index id parts).length_eq, entries, List.length_map, keyed,
    List.length_zip, length_keys, Nat.min_self]

theorem getElem?_fusion {parts : List (α × Ranking α)} {i : Nat} {key : String}
    {part : α × Ranking α} (hk : (keys parts)[i]? = some key) (hp : parts[i]? = some part) :
    (score tokens index id (.fusion parts)).components[key]? =
      some (share tokens index id part) := by
  have hm : (key, part) ∈ keyed parts := by
    refine List.mem_of_getElem? (i := i) ?_
    rw [keyed, List.getElem?_zip_eq_some]
    exact ⟨hk, hp⟩
  rw [score, ← Std.ExtTreeMap.mem_toList_iff_getElem?_eq_some,
    (weightedSum_components_perm tokens index id parts).mem_iff]
  exact List.mem_map_of_mem hm

end Score

/-- A fusion of as many rankings as weights has distinct keys, one for each ranking, and keeps under
them the weighted score of each ranking and nothing else. -/
theorem fusion_shares [Scalar α] {rankings : List (Ranking α)} {weights : List α}
    (h : rankings.length = weights.length) :
    ∃ parts, partsOf rankings weights = .ok parts ∧ (keys parts).length = rankings.length ∧
      (keys parts).Nodup ∧ ∀ (tokens : List String) (index : Index) (id : String),
        let components := (score tokens index id (.fusion parts)).components
        components.size = rankings.length ∧ ∀ (i : Nat) (key : String) (weight : α)
          (ranking : Ranking α), (keys parts)[i]? = some key → weights[i]? = some weight →
            rankings[i]? = some ranking →
            components[key]? = some (weight * (score tokens index id ranking).total) := by
  have hl : (weights.zip rankings).length = rankings.length := by simp [h]
  refine ⟨_, partsOf_eq_ok h, (length_keys _).trans hl, nodup_keys _, fun tokens index id => ?_⟩
  refine ⟨(size_fusion tokens index id _).trans hl, fun i key weight ranking hk hw hr => ?_⟩
  have hp : (weights.zip rankings)[i]? = some (weight, ranking) :=
    List.getElem?_zip_eq_some.2 ⟨hw, hr⟩
  exact getElem?_fusion tokens index id hk hp

theorem fusion_shares_nested :
    let bm25 : Ranking Double := .bm25 .standard
    let rankings := [bm25, .fusion [(Scalar.one, bm25), (Scalar.half, bm25)], bm25, .fusion []]
    let weights : List Double := [Scalar.one, Scalar.half, Scalar.ofNat 2, Scalar.zero]
    rankings.length = weights.length ∧
      ∃ parts, partsOf rankings weights = .ok parts ∧ (keys parts).length = rankings.length ∧
        (keys parts).Nodup ∧ ∀ (tokens : List String) (index : Index) (id : String),
          let components := (score tokens index id (.fusion parts)).components
          components.size = rankings.length ∧ ∀ (i : Nat) (key : String) (weight : Double)
            (ranking : Ranking Double), (keys parts)[i]? = some key → weights[i]? = some weight →
              rankings[i]? = some ranking →
              components[key]? = some (weight * (score tokens index id ranking).total) := by
  intro bm25 rankings weights
  exact ⟨rfl, fusion_shares rfl⟩

end Ranking

end Concordance

import Concordance.Ranking.Basic
import Mathlib

namespace Concordance

theorem filter_eq_eraseP {γ : Type} {l : List γ} {p q : γ → Bool} (hq : ∀ x ∈ l, q x → p x)
    (hf : ∀ x, l.find? p = some x → q x) (hn : l.Pairwise fun x y => ¬ (q x ∧ q y)) :
    l.filter (!q ·) = l.eraseP p := by
  induction l with
  | nil => rfl
  | cons x l ih =>
    obtain ⟨hx, hl⟩ := List.pairwise_cons.1 hn
    by_cases hp : p x = true
    · have hqx := hf x (by rw [List.find?_cons_of_pos hp])
      have hrest : l.filter (!q ·) = l := List.filter_eq_self.2 fun y hy => by
        simpa using fun hqy => hx y hy ⟨hqx, hqy⟩
      rw [List.eraseP_cons_of_pos hp, List.filter_cons_of_neg (by simpa using hqx), hrest]
    · have hqx : ¬ q x = true := fun h => hp (hq x (by simp) h)
      rw [List.eraseP_cons_of_neg hp, List.filter_cons_of_pos (by simpa using hqx)]
      refine congrArg (x :: ·) (ih (fun y hy => hq y (by simp [hy])) (fun y hy => hf y ?_) hl)
      rwa [List.find?_cons_of_neg hp]

namespace Ranking

theorem toList_marked (name : String) (i : Nat) :
    (name ++ "#" ++ toString i).toList = name.toList ++ '#' :: (toString i).toList := by
  simp

theorem ne_marked {name : String} (h : '#' ∉ name.toList) (other : String) (i : Nat) :
    name ≠ other ++ "#" ++ toString i := by
  rintro rfl
  rw [toList_marked] at h
  simp at h

theorem dropWhile_marked {name : String} (h : '#' ∉ name.toList) (i : Nat) :
    (name ++ "#" ++ toString i).toList.dropWhile (· != '#') = '#' :: (toString i).toList := by
  have hn : ∀ c ∈ name.toList, (c != '#') = true := fun c hc => by
    simpa using fun he : c = '#' => h (he ▸ hc)
  rw [toList_marked, List.dropWhile_append_of_pos hn, List.dropWhile_cons_of_neg (by simp)]

theorem marked_inj {name other : String} {i j : Nat} (h : '#' ∉ name.toList)
    (ho : '#' ∉ other.toList) (he : name ++ "#" ++ toString i = other ++ "#" ++ toString j) :
    i = j := by
  have hs := dropWhile_marked h i
  rw [he, dropWhile_marked ho, List.cons.injEq, String.toList_inj] at hs
  exact (Nat.repr_injective hs.2).symm

variable {names : List String}

theorem length_keysOf : (keysOf names).length = names.length := by
  simp [keysOf]

theorem getElem?_keysOf (i : Nat) : (keysOf names)[i]? = names[i]?.map fun name =>
    if name ∈ names.take i then name ++ "#" ++ toString i else name := by
  simp [keysOf, List.getElem?_zipIdx, Function.comp_def]

theorem nodup_keysOf (h : ∀ name ∈ names, '#' ∉ name.toList) : (keysOf names).Nodup := by
  refine List.nodup_iff_getElem?_ne_getElem?.2 fun i j hij hj => ?_
  rw [length_keysOf] at hj
  have hi : i < names.length := hij.trans hj
  have hmi := h _ (List.getElem_mem hi)
  have hmj := h _ (List.getElem_mem hj)
  rw [getElem?_keysOf, getElem?_keysOf, List.getElem?_eq_getElem hi, List.getElem?_eq_getElem hj,
    Option.map_some, Option.map_some, Ne, Option.some.injEq]
  split <;> split
  case isTrue.isTrue => exact fun he => hij.ne (marked_inj hmi hmj he)
  case isTrue.isFalse => exact fun he => ne_marked hmj _ i he.symm
  case isFalse.isTrue => exact ne_marked hmi _ j
  case isFalse.isFalse hn =>
    exact fun he => hn (he ▸ List.mem_take_iff_getElem.2 ⟨i, by omega, rfl⟩)

section Parts

variable {α : Type}

theorem mark_not_mem_name (ranking : Ranking α) : '#' ∉ ranking.name.toList := by
  cases ranking <;> simp [name]

def keyed (parts : List (α × Ranking α)) : List (String × α × Ranking α) := (keys parts).zip parts

def byDate (part : α × Ranking α) : Bool := part.2.name == "recency"

theorem byDate_iff {part : α × Ranking α} : byDate part = true ↔ part.2.name = "recency" :=
  beq_iff_eq

variable (parts : List (α × Ranking α))

theorem nodup_keys : (keys parts).Nodup :=
  nodup_keysOf fun name hm => by
    obtain ⟨part, -, rfl⟩ := List.mem_map.1 hm
    exact mark_not_mem_name part.2

theorem length_keys : (keys parts).length = parts.length := by
  rw [keys, length_keysOf, List.length_map]

theorem map_fst_keyed : (keyed parts).map Prod.fst = keys parts :=
  List.map_fst_zip (length_keys parts).le

theorem map_snd_keyed : (keyed parts).map Prod.snd = parts :=
  List.map_snd_zip (length_keys parts).ge

theorem key_of_getElem?_keyed {i : Nat} {part : String × α × Ranking α}
    (h : (keyed parts)[i]? = some part) : part.1 =
      if part.2.2.name ∈ (parts.map (·.2.name)).take i then part.2.2.name ++ "#" ++ toString i
      else part.2.2.name := by
  obtain ⟨hk, hp⟩ := List.getElem?_zip_eq_some.1 h
  rw [keys, getElem?_keysOf, List.getElem?_map, hp] at hk
  exact (Option.some.inj hk).symm

theorem filter_keyed : (keyed parts).filter (!·.1 == "recency") =
    (keyed parts).eraseP (byDate ∘ Prod.snd) := by
  refine filter_eq_eraseP (fun part hm hk => ?_) (fun part hf => ?_) ?_
  · obtain ⟨i, hi⟩ := List.getElem?_of_mem hm
    have hkey := key_of_getElem?_keyed parts hi
    rw [beq_iff_eq.1 hk] at hkey
    split at hkey
    next => exact absurd hkey (ne_marked (by decide) _ i)
    next => exact byDate_iff.2 hkey.symm
  · obtain ⟨hn, before, after, hs, hb⟩ := List.find?_eq_some_iff_append.1 hf
    have hi : (keyed parts)[before.length]? = some part := by simp [hs]
    have hkey := key_of_getElem?_keyed parts hi
    have hfirst : part.2.2.name ∉ (parts.map (·.2.name)).take before.length := by
      rw [← map_snd_keyed parts, hs, byDate_iff.1 hn]
      simpa [byDate] using hb
    rw [if_neg hfirst] at hkey
    exact beq_iff_eq.2 (hkey.trans (byDate_iff.1 hn))
  · have hkeys := nodup_keys parts
    rw [← map_fst_keyed] at hkeys
    refine (List.pairwise_map.1 hkeys).imp fun hne => ?_
    rintro ⟨hx, hy⟩
    exact hne ((beq_iff_eq.1 hx).trans (beq_iff_eq.1 hy).symm)

end Parts

end Ranking

end Concordance

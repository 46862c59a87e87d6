import Concordance.Proofs.Index.Contents
import Concordance.Proofs.Number.Real
import Concordance.Ranking.Score

namespace Concordance

section Insert

variable {β : Type}

theorem toList_insert_perm (m : Named β) (name : String) (x : β) :
    (m.insert name x).toList.Perm ((name, x) :: m.toList.filter (·.1 != name)) := by
  have hf : ((name, x) :: m.toList.filter (·.1 != name)).Nodup := by
    refine List.nodup_cons.2 ⟨by simp, ?_⟩
    exact (nodup_keys_toList m).of_map.filter _
  refine (List.perm_ext_iff_of_nodup (nodup_keys_toList _).of_map hf).2 fun ⟨other, y⟩ => ?_
  rw [Std.ExtTreeMap.mem_toList_iff_getElem?_eq_some, Std.ExtTreeMap.getElem?_insert]
  by_cases he : name = other
  · subst he
    simp [eq_comm]
  · simp [he, Ne.symm he]

theorem toList_foldl_insert_perm {entries : List (String × β)}
    (h : (entries.map Prod.fst).Nodup) :
    (entries.foldl (fun m e => m.insert e.1 e.2) (∅ : Named β)).toList.Perm entries := by
  induction entries using List.reverseRecOn with
  | nil => simp
  | append_singleton entries last ih =>
    rw [List.map_append, List.nodup_append] at h
    obtain ⟨hd, -, hn⟩ := h
    have hl : entries.filter (·.1 != last.1) = entries :=
      List.filter_eq_self.2 fun e he => by
        simpa using hn e.1 (List.mem_map_of_mem he) last.1 (by simp)
    have hm := (ih hd).filter (·.1 != last.1)
    rw [hl] at hm
    rw [List.foldl_append, List.foldl_cons, List.foldl_nil]
    exact (toList_insert_perm ..).trans
      ((hm.cons last).trans (List.perm_append_singleton last entries).symm)

end Insert

section Sum

variable (values : Named ℝ) (name : String)

theorem sum_insert (x : ℝ) : ((values.insert name x).toList.map Prod.snd).sum + values.getD name 0 =
    (values.toList.map Prod.snd).sum + x := by
  have hnew := ((toList_insert_perm values name x).map Prod.snd).sum_eq
  rw [List.map_cons, List.sum_cons] at hnew
  have hold : (values.toList.map Prod.snd).sum = values.getD name 0 +
      ((values.toList.filter (·.1 != name)).map Prod.snd).sum := by
    rw [Std.ExtTreeMap.getD_eq_getD_getElem?]
    cases hv : values[name]? with
    | none =>
      have hn : ∀ e ∈ values.toList, (e.1 != name) = true := fun e he => by
        rw [Std.ExtTreeMap.mem_toList_iff_getElem?_eq_some] at he
        simpa using fun heq : e.1 = name => by simp [← heq, he] at hv
      rw [List.filter_eq_self.2 hn, Option.getD_none, zero_add]
    | some v =>
      have hsame : values.insert name v = values := by
        refine Std.ExtTreeMap.ext_getElem? fun other => ?_
        rw [Std.ExtTreeMap.getElem?_insert]
        split
        next he => rw [← Std.LawfulEqCmp.compare_eq_iff_eq.1 he, hv]
        next => rfl
      have hp := ((toList_insert_perm values name v).map Prod.snd).sum_eq
      rwa [hsame, List.map_cons, List.sum_cons] at hp
  linarith

theorem addAt_eq_insert (x : ℝ) :
    addAt values name x = values.insert name (values.getD name 0 + x) := by
  refine Std.ExtTreeMap.ext_getElem? fun other => ?_
  rw [addAt, Std.ExtTreeMap.getElem?_alter, Std.ExtTreeMap.getElem?_insert, Scalar.zero_real,
    Std.ExtTreeMap.getD_eq_getD_getElem?]

theorem sum_addAt (x : ℝ) : ((addAt values name x).toList.map Prod.snd).sum =
    (values.toList.map Prod.snd).sum + x := by
  have hs := sum_insert values name (values.getD name 0 + x)
  rw [addAt_eq_insert]
  linarith

theorem mem_addAt (x : ℝ) {other : String} :
    other ∈ addAt values name x ↔ name = other ∨ other ∈ values := by
  rw [addAt_eq_insert, Std.ExtTreeMap.mem_insert, Std.LawfulEqCmp.compare_eq_iff_eq]

end Sum

end Concordance

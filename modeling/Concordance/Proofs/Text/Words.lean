import Concordance.Text.Words
import Mathlib.Data.List.Induction
import Mathlib.Data.List.TakeWhile

namespace Concordance

variable {p : Char → Bool}

theorem foldr_push (cs : List Char) (found : List (List Char)) :
    let scan := cs.foldr (RunScan.push p) ⟨false, []⟩
    (scan.isOpen = true → scan.found ≠ []) ∧
      cs.foldr (RunScan.push p) ⟨false, found⟩ = ⟨scan.isOpen, scan.found ++ found⟩ := by
  induction cs with
  | nil => simp
  | cons c cs ih =>
    simp only [List.foldr_cons] at ih ⊢
    obtain ⟨hopen, heq⟩ := ih
    rw [heq]
    generalize cs.foldr (RunScan.push p) ⟨false, []⟩ = scan at hopen
    obtain ⟨isOpen, runs⟩ := scan
    unfold RunScan.push
    by_cases hc : p c = true
    · cases isOpen with
      | false => simp [hc]
      | true =>
        cases runs with
        | nil => exact absurd rfl (hopen rfl)
        | cons run rest => simp [hc]
    · simp [hc]

theorem runs_append {c : Char} (hc : p c = false) (cs ds : List Char) :
    runs p (cs ++ c :: ds) = runs p cs ++ runs p ds := by
  have hs : (c :: ds).foldr (RunScan.push p) ⟨false, []⟩ = ⟨false, runs p ds⟩ := by
    simp [runs, RunScan.push, hc]
  rw [runs, List.foldr_append, hs, (foldr_push cs _).2]
  rfl

theorem runs_eq_singleton {cs : List Char} (hn : cs ≠ []) (h : ∀ c ∈ cs, p c = true) :
    runs p cs = [cs] := by
  have hs : ∀ cs : List Char, cs ≠ [] → (∀ c ∈ cs, p c = true) →
      cs.foldr (RunScan.push p) ⟨false, []⟩ = ⟨true, [cs]⟩ := by
    intro cs
    induction cs with
    | nil => exact fun hn => absurd rfl hn
    | cons c rest ih =>
      intro _ h
      have hc : p c = true := h c (by simp)
      cases rest with
      | nil => simp [RunScan.push, hc]
      | cons d rest =>
        rw [List.foldr_cons, ih (by simp) fun e he => h e (by simp [he])]
        simp [RunScan.push, hc]
  rw [runs, hs cs hn h]

theorem blankWords_append (s t : String) :
    blankWords (s ++ " " ++ t) = blankWords s ++ blankWords t := by
  have ht : (s ++ " " ++ t).toList = s.toList ++ ' ' :: t.toList := by simp
  rw [blankWords, ht, runs_append (by decide), List.map_append]
  rfl

theorem blankWords_eq_singleton {word : String} (hn : word.toList ≠ [])
    (h : ∀ c ∈ word.toList, isBlank c = false) : blankWords word = [word] := by
  rw [blankWords, runs_eq_singleton hn fun c hc => by simp [h c hc]]
  simp

section Trim

variable {cs : List Char}

theorem dropWhile_eq_self (h : ∀ c, cs.head? = some c → p c = false) : cs.dropWhile p = cs := by
  cases cs with
  | nil => rfl
  | cons c rest => simp [h c rfl]

theorem trimBoth_isPrefix_dropWhile (p : Char → Bool) (cs : List Char) :
    trimBoth p cs <+: cs.dropWhile p := by
  rw [trimBoth, ← List.reverse_suffix, List.reverse_reverse]
  exact List.dropWhile_suffix p

theorem trimBoth_isInfix (p : Char → Bool) (cs : List Char) : trimBoth p cs <:+: cs :=
  (trimBoth_isPrefix_dropWhile p cs).isInfix.trans (List.dropWhile_suffix p).isInfix

theorem trimBoth_isPrefix (h : ∀ c, cs.head? = some c → p c = false) : trimBoth p cs <+: cs := by
  have hp := trimBoth_isPrefix_dropWhile p cs
  rwa [dropWhile_eq_self h] at hp

theorem head?_trimBoth {c : Char} (h : (trimBoth p cs).head? = some c) : p c = false := by
  obtain ⟨rest, hr⟩ := trimBoth_isPrefix_dropWhile p cs
  have hd := List.head?_dropWhile_not p cs
  rw [← hr, List.head?_append, h] at hd
  exact hd

theorem getLast?_trimBoth {c : Char} (h : (trimBoth p cs).getLast? = some c) : p c = false := by
  rw [trimBoth, List.getLast?_reverse] at h
  have hd := List.head?_dropWhile_not p (cs.dropWhile p).reverse
  rw [h] at hd
  exact hd

theorem trimBoth_eq_nil_iff : trimBoth p cs = [] ↔ ∀ c ∈ cs, p c = true := by
  rw [trimBoth, List.reverse_eq_nil_iff, List.dropWhile_eq_nil_iff]
  constructor
  · intro h
    refine List.dropWhile_eq_nil_iff.1 (Decidable.byContradiction fun hn => ?_)
    have hp := h _ (List.mem_reverse.2 (List.head_mem hn))
    exact Bool.noConfusion (hp.symm.trans (List.head_dropWhile_not p hn))
  · exact fun h c hc => h c ((List.dropWhile_suffix p).subset (List.mem_reverse.1 hc))

theorem trimBoth_eq_self (hf : ∀ c, cs.head? = some c → p c = false)
    (hb : ∀ c, cs.getLast? = some c → p c = false) : trimBoth p cs = cs := by
  have hr : cs.reverse.dropWhile p = cs.reverse := dropWhile_eq_self (by simpa using hb)
  rw [trimBoth, dropWhile_eq_self hf, hr, List.reverse_reverse]

theorem trimBoth_concat {c : Char} (hc : p c = true) (cs : List Char) :
    trimBoth p (cs ++ [c]) = trimBoth p cs := by
  unfold trimBoth
  rw [List.dropWhile_append]
  split
  next he =>
    rw [List.isEmpty_iff.1 he]
    simp [hc]
  next => simp [hc]

theorem trimBoth_surrounded {front back : List Char} (hf : ∀ c ∈ front, p c = true)
    (hb : ∀ c ∈ back, p c = true) : trimBoth p (front ++ cs ++ back) = trimBoth p cs := by
  induction back using List.reverseRecOn with
  | nil => rw [List.append_nil, trimBoth, List.dropWhile_append_of_pos hf, trimBoth]
  | append_singleton back c ih =>
    obtain ⟨hback, hc⟩ := List.forall_mem_append.1 hb
    rw [← List.append_assoc, trimBoth_concat (hc c (List.mem_singleton_self c)), ih hback]

theorem trimBoth_eq_self_of_ends {front back : List Char}
    (hf : front ≠ [] ∧ ∀ c ∈ front, p c = false) (hb : back ≠ [] ∧ ∀ c ∈ back, p c = false) :
    trimBoth p (front ++ (cs ++ back)) = front ++ (cs ++ back) := by
  refine trimBoth_eq_self (fun c hc => hf.2 c ?_) (fun c hc => hb.2 c ?_)
  · rw [List.head?_append, List.head?_eq_some_head hf.1, Option.some_or] at hc
    cases hc
    exact List.head_mem hf.1
  · rw [← List.append_assoc, List.getLast?_append, List.getLast?_eq_some_getLast hb.1,
      Option.some_or] at hc
    cases hc
    exact List.getLast_mem hb.1

end Trim

end Concordance

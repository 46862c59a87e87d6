import Concordance.Text.Lowercase

/-!
Lowercased text.  Lowercasing gives characters that it leaves as they are, wherever they stand, and
makes no blanks.  For the characters of the table this is read off the runs: no lowercase of one run
is covered by another, and none lies where the blanks are.
-/

namespace Concordance

def IsLower (c : Char) : Prop := lowerFrom false [c] = [c]

instance (c : Char) : Decidable (IsLower c) := inferInstanceAs (Decidable (_ = _))

theorem isLower_iff {c : Char} : IsLower c ↔ c ≠ 'Σ' ∧ lowerChar c = [c] := by
  unfold IsLower lowerFrom
  by_cases hs : c = 'Σ'
  · subst hs
    decide +kernel
  · simp [hs, lowerFrom]

theorem ascii_cases {P : Char → Prop} (h : ∀ n < 128, P (Char.ofNat n)) {c : Char}
    (hc : isAscii c = true) : P c := by
  have hp := h c.toNat (by simpa [isAscii] using hc)
  rwa [Char.ofNat_toNat] at hp

namespace CaseRun

def low (run : CaseRun) : Nat := ((run.first : Int) + run.shift).toNat

def high (run : CaseRun) : Nat := ((run.last : Int) + run.shift).toNat

def misses (run : CaseRun) (low high stride : Nat) : Bool :=
  run.last.blt low || high.blt run.first ||
    run.stride.beq 2 && (stride.beq 2 || low.beq high) && ((low + run.first) % 2).beq 1

theorem covers_of_misses {run : CaseRun} {low high stride point : Nat}
    (h : run.misses low high stride = true) (hl : low ≤ point) (hh : point ≤ high)
    (hs : (point - low) % stride = 0) : run.covers point = false := by
  refine Bool.eq_false_iff.2 fun hc => ?_
  simp only [covers, Bool.and_eq_true, decide_eq_true_eq, beq_iff_eq] at hc
  obtain ⟨⟨hf, he⟩, hm⟩ := hc
  simp only [misses, Bool.or_eq_true, Bool.and_eq_true, Nat.blt_eq, Nat.beq_eq] at h
  rcases h with (h | h) | ⟨⟨h2, h⟩, hp⟩
  · omega
  · omega
  · rw [h2] at hm
    rcases h with h | h
    · rw [h] at hs
      omega
    · omega

end CaseRun

/-- Where no lowercase of the table lies: ASCII but for its small letters, the dotted capital I, and
all blanks. -/
def lowerFree : List (Nat × Nat) := [
  (0, 0x60), (0x7B, 0xDE), (0x130, 0x130), (0x1680, 0x1680), (0x2000, 0x200A), (0x2028, 0x2029),
  (0x202F, 0x202F), (0x205F, 0x205F), (0x3000, 0x3000)]

def CaseRun.isFinal (run : CaseRun) : Bool :=
  (0 : Int) ≤ run.first + run.shift &&
    (lowerFree.all fun gap => run.high.blt gap.1 || gap.2.blt run.low) &&
    lowercaseRuns.all fun other => other.misses run.low run.high run.stride

theorem isFinal_lowercaseRuns : lowercaseRuns.all CaseRun.isFinal = true := by decide +kernel

theorem lowerByTable_eq_some {c d : Char} (h : lowerByTable c = some d) :
    ∃ run ∈ lowercaseRuns, run.covers c.toNat = true ∧
      d = Char.ofNat ((c.toNat : Int) + run.shift).toNat := by
  obtain ⟨run, hr, rfl⟩ := Option.map_eq_some_iff.1 h
  have hc := List.find?_some hr
  exact ⟨run, List.mem_of_find?_eq_some hr, hc, rfl⟩

theorem toNat_ofNat_cases (n : Nat) : (Char.ofNat n).toNat = n ∨ Char.ofNat n = '\x00' := by
  by_cases h : n.isValidChar
  · rw [Char.ofNat, dif_pos h]
    exact .inl rfl
  · rw [Char.ofNat, dif_neg h]
    exact .inr rfl

section Outside

variable {c : Char} (hg : ∀ gap ∈ lowerFree, c.toNat < gap.1 ∨ gap.2 < c.toNat)
include hg

theorem isBlank_eq_false_of_gaps : isBlank c = false := by
  simp only [lowerFree, List.forall_mem_cons] at hg
  simp [isBlank]
  omega

theorem isLower_of_not_covered (hr : ∀ run ∈ lowercaseRuns, run.covers c.toNat = false) :
    IsLower c := by
  simp only [lowerFree, List.forall_mem_cons] at hg
  by_cases ha : isAscii c = true
  · have small : ∀ n < 128, 0x60 < n → n < 0x7B → IsLower (Char.ofNat n) := by decide +kernel
    have hn : c.toNat < 0x80 := by simpa [isAscii] using ha
    have hl := small c.toNat hn (by omega) (by omega)
    rwa [Char.ofNat_toNat] at hl
  · have hsigma : c ≠ 'Σ' := by
      rintro rfl
      exact absurd (hr ⟨0x3A3, 0x3AB, 1, 32⟩ (by decide +kernel)) (by decide)
    have hi : c ≠ 'İ' := by
      rintro rfl
      have : 'İ'.toNat = 0x130 := rfl
      omega
    have ht : lowerByTable c = none := by
      rw [lowerByTable, List.find?_eq_none.2 fun run hm => by simp [hr run hm], Option.map_none]
    exact isLower_iff.2 ⟨hsigma, by simp [lowerChar, ha, hi, ht]⟩

end Outside

/-- The lowercase that the table gives lies outside the gaps and has no other lowercase; a number
beyond the code points gives the null character. -/
theorem lowerByTable_outside {c d : Char} (h : lowerByTable c = some d) : d = '\x00' ∨
    (∀ gap ∈ lowerFree, d.toNat < gap.1 ∨ gap.2 < d.toNat) ∧
      ∀ run ∈ lowercaseRuns, run.covers d.toNat = false := by
  obtain ⟨run, hr, hc, hd⟩ := lowerByTable_eq_some h
  have hf := List.all_eq_true.1 isFinal_lowercaseRuns run hr
  simp only [CaseRun.isFinal, Bool.and_eq_true, decide_eq_true_eq, List.all_eq_true,
    Bool.or_eq_true, Nat.blt_eq] at hf
  obtain ⟨⟨hpos, hgaps⟩, hmiss⟩ := hf
  simp only [CaseRun.covers, Bool.and_eq_true, decide_eq_true_eq, beq_iff_eq] at hc
  obtain ⟨⟨hfirst, hlast⟩, hstride⟩ := hc
  generalize hn : ((c.toNat : Int) + run.shift).toNat = n at hd
  have hlow : run.low ≤ n := by unfold CaseRun.low; omega
  have hhigh : n ≤ run.high := by unfold CaseRun.high; omega
  have hstep : n - run.low = c.toNat - run.first := by unfold CaseRun.low; omega
  rcases toNat_ofNat_cases n with ht | ht
  · rw [hd, ht]
    exact .inr ⟨fun gap hm => (hgaps gap hm).imp (by omega) (by omega), fun other hm =>
      CaseRun.covers_of_misses (hmiss other hm) hlow hhigh (by rw [hstep, hstride])⟩
  · exact .inl (hd.trans ht)

theorem lowerByTable_final {c d : Char} (h : lowerByTable c = some d) :
    IsLower d ∧ isBlank d = false := by
  rcases lowerByTable_outside h with rfl | ⟨hg, hr⟩
  · decide +kernel
  · exact ⟨isLower_of_not_covered hg hr, isBlank_eq_false_of_gaps hg⟩

theorem mem_lowerChar {c d : Char} (h : d ∈ lowerChar c) :
    IsLower d ∧ (isBlank c = false → isBlank d = false) := by
  unfold lowerChar at h
  split at h
  next ha =>
    rw [List.mem_singleton.1 h]
    refine ascii_cases (P := fun c => IsLower c.toLower ∧
      (isBlank c = false → isBlank c.toLower = false)) ?_ ha
    decide +kernel
  next ha =>
    split at h
    · have hd : d = 'i' ∨ d = '\u0307' := by simpa using h
      rcases hd with rfl | rfl <;> exact ⟨by decide +kernel, fun _ => by decide +kernel⟩
    next hi =>
      rw [List.mem_singleton.1 h]
      cases ht : lowerByTable c with
      | some e => exact ⟨(lowerByTable_final ht).1, fun _ => (lowerByTable_final ht).2⟩
      | none =>
        refine ⟨isLower_iff.2 ⟨?_, by simp [lowerChar, ha, hi, ht]⟩, id⟩
        rintro rfl
        exact absurd ht (by decide +kernel)

/-- What lowercasing gives is left as it is by lowercasing, and is no blank where there was none. -/
theorem mem_lowerFrom {behind : Bool} {cs : List Char} {d : Char} (h : d ∈ lowerFrom behind cs) :
    IsLower d ∧ ((∀ c ∈ cs, isBlank c = false) → isBlank d = false) := by
  induction cs generalizing behind with
  | nil => cases h
  | cons c rest ih =>
    rw [lowerFrom, List.mem_append] at h
    rcases h with h | h
    · split at h
      · have hd : d = 'σ' ∨ d = 'ς' := by
          split at h <;> simp_all
        rcases hd with rfl | rfl <;> exact ⟨by decide +kernel, fun _ => by decide +kernel⟩
      · obtain ⟨hl, hb⟩ := mem_lowerChar h
        exact ⟨hl, fun hn => hb (hn c (by simp))⟩
    · obtain ⟨hl, hb⟩ := ih h
      exact ⟨hl, fun hn => hb fun c hc => hn c (by simp [hc])⟩

section Below

variable {d : Char} (hd : d.toNat ≤ 0x60) (hn : d ≠ '\x00')
include hd hn

theorem eq_of_mem_lowerChar {c : Char} (h : d ∈ lowerChar c) : c = d := by
  unfold lowerChar at h
  split at h
  next ha =>
    have hl : c.toLower.toNat ≤ 0x60 → c = c.toLower :=
      ascii_cases (P := fun c => c.toLower.toNat ≤ 0x60 → c = c.toLower) (by decide +kernel) ha
    rw [List.mem_singleton.1 h] at hd ⊢
    exact hl hd
  next =>
    split at h
    · have hi : d = 'i' ∨ d = '\u0307' := by simpa using h
      rcases hi with rfl | rfl <;> exact absurd hd (by decide)
    · rw [List.mem_singleton.1 h] at hd hn ⊢
      cases ht : lowerByTable c with
      | none => rfl
      | some e =>
        rw [ht] at hd hn
        rcases lowerByTable_outside ht with he | ⟨hg, -⟩
        · exact absurd he hn
        · have hf := hg (0, 0x60) (by simp [lowerFree])
          simp only [Option.getD_some] at hd
          omega

theorem eq_of_mem_first {c : Char} {sigma : Char} (hs : sigma = 'ς' ∨ sigma = 'σ')
    (h : d ∈ if c == 'Σ' then [sigma] else lowerChar c) : c = d := by
  split at h
  · rw [List.mem_singleton.1 h] at hd
    rcases hs with rfl | rfl <;> exact absurd hd (by decide)
  · exact eq_of_mem_lowerChar hd hn h

theorem mem_of_mem_lowerFrom {behind : Bool} {cs : List Char} (h : d ∈ lowerFrom behind cs) :
    d ∈ cs := by
  induction cs generalizing behind with
  | nil => cases h
  | cons c rest ih =>
    rw [lowerFrom, List.mem_append] at h
    rcases h with h | h
    · simp [eq_of_mem_first hd hn (by split <;> simp) h]
    · exact List.mem_cons_of_mem c (ih h)

theorem head?_of_head?_lowerFrom {behind : Bool} {cs : List Char}
    (h : (lowerFrom behind cs).head? = some d) : cs.head? = some d := by
  cases cs with
  | nil => cases h
  | cons c rest =>
    have hf : (if c == 'Σ' then [if behind && !casedAhead rest then 'ς' else 'σ']
        else lowerChar c) ≠ [] := by
      unfold lowerChar
      split
      · simp
      · split
        · simp
        · split <;> simp
    rw [lowerFrom, List.head?_append, List.head?_eq_some_head hf, Option.some_or] at h
    have hm := List.head_mem hf
    rw [Option.some.inj h] at hm
    rw [eq_of_mem_first hd hn (by split <;> simp) hm]
    rfl

end Below

theorem lowerFrom_eq_self {cs : List Char} (h : ∀ c ∈ cs, IsLower c) (behind : Bool) :
    lowerFrom behind cs = cs := by
  induction cs generalizing behind with
  | nil => rfl
  | cons c rest ih =>
    obtain ⟨hs, hc⟩ := isLower_iff.1 (h c (by simp))
    rw [lowerFrom, if_neg (by simpa using hs), hc, ih fun d hd => h d (by simp [hd])]
    rfl

theorem casedAhead_cons (c : Char) (cs : List Char) :
    casedAhead (c :: cs) = if isCaseIgnorable c then casedAhead cs else isCased c := by
  by_cases h : isCaseIgnorable c = true <;> simp [casedAhead, h]

theorem casedAhead_append_space (cs ds : List Char) :
    casedAhead (cs ++ ' ' :: ds) = casedAhead cs := by
  induction cs with
  | nil => rfl
  | cons c cs ih => rw [List.cons_append, casedAhead_cons, casedAhead_cons, ih]

/-- A space hides the letters behind it, so what is on its two sides is lowercased apart. -/
theorem lowerFrom_append_space (behind : Bool) (cs ds : List Char) :
    lowerFrom behind (cs ++ ' ' :: ds) = lowerFrom behind cs ++ ' ' :: lowerFrom false ds := by
  induction cs generalizing behind with
  | nil => rfl
  | cons c cs ih =>
    rw [List.cons_append, lowerFrom, lowerFrom, casedAhead_append_space, ih, List.append_assoc]

theorem lowercase_eq_self {text : String} (h : ∀ c ∈ text.toList, IsLower c) :
    lowercase text = text := by
  rw [lowercase, lowerFrom_eq_self h, String.ofList_toList]

end Concordance

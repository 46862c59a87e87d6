import Concordance.Proofs.Json.Literals
import Concordance.Proofs.Text.Words
import Concordance.Time.Timestamp

namespace Concordance

open Timestamp

def padded (width n : Nat) : List Char := zeros (width - (digitChars n).length) ++ digitChars n

section Padded

variable {width n : Nat}

theorem digits_padded (width n : Nat) : Digits (padded width n) :=
  (digits_digitChars n).after (isDigit_zeros _)

theorem length_padded (hw : 0 < width) (hn : n < 10 ^ width) : (padded width n).length = width := by
  have hl : (digitChars n).length ≤ width := Nat.toDigits_length 10 n width hw hn
  simp only [padded, zeros, List.length_append, List.length_replicate]
  omega

theorem digitsValue_zeros (k : Nat) (cs : List Char) :
    digitsValue (zeros k ++ cs) = digitsValue cs := by
  induction k with
  | zero => rfl
  | succ k ih => exact ih

theorem digitsValue_padded (width n : Nat) : digitsValue (padded width n) = n := by
  rw [padded, digitsValue_zeros, digitsValue_digitChars]

end Padded

theorem isBlank_of_isDigit {c : Char} (h : c.isDigit = true) : isBlank c = false := by
  simp only [Char.isDigit, Bool.and_eq_true, decide_eq_true_eq] at h
  have hlow : 48 ≤ c.toNat := h.1
  have hhigh : c.toNat ≤ 57 := h.2
  simp only [isBlank, Bool.or_eq_false_iff, Bool.and_eq_false_iff, decide_eq_false_iff_not,
    beq_eq_false_iff_ne]
  omega

section Row

variable {row rest : List Char}

theorem Digits.not_blank (h : Digits row) : row ≠ [] ∧ ∀ c ∈ row, isBlank c = false :=
  ⟨h.1, fun c hc => isBlank_of_isDigit (h.2 c hc)⟩

theorem Digits.exists_cons (h : Digits row) : ∃ c cs, row = c :: cs ∧ c.isDigit = true := by
  obtain ⟨c, cs, rfl⟩ := List.exists_cons_of_ne_nil h.1
  exact ⟨c, cs, rfl, h.2 c (List.mem_cons_self ..)⟩

theorem Digits.dropWhile_isBlank (h : Digits row) :
    (row ++ rest).dropWhile isBlank = row ++ rest := by
  obtain ⟨c, cs, rfl, hc⟩ := h.exists_cons
  refine dropWhile_eq_self fun d hd => ?_
  cases hd
  exact isBlank_of_isDigit hc

end Row

namespace Timestamp

theorem read_bind {α β : Type} {part : Option α} {a : α} {next : α → Option β}
    (h : part = some a) : (part >>= next) = next a := by
  rw [h]
  rfl

@[simp] theorem mark?_self (c : Char) (rest : List Char) : mark? c (c :: rest) = some rest := by
  simp [mark?]

section Numbers

variable {width n : Nat}

theorem digits?_padded {least : Nat} (hw : 0 < width) (hl : least ≤ width) (hn : n < 10 ^ width)
    (rest : List Char) : digits? least width (padded width n ++ rest) = some (n, rest) := by
  have hlen := length_padded hw hn
  have htake : (padded width n ++ rest).take width = padded width n := List.take_left' hlen
  have hrow : (padded width n).takeWhile Char.isDigit = padded width n :=
    List.takeWhile_eq_self_iff.2 (digits_padded width n).2
  have hdrop : (padded width n ++ rest).drop width = rest := List.drop_left' hlen
  simp only [digits?, htake, hrow, hlen, if_neg (Nat.not_lt.2 hl), digitsValue_padded, hdrop]

theorem digits?_full (hw : 0 < width) (hn : n < 10 ^ width) (rest : List Char) :
    digits? width width (padded width n ++ rest) = some (n, rest) :=
  digits?_padded hw (Nat.le_refl width) hn rest

theorem field?_padded (hw : 0 < width) (hn : n < 10 ^ width) (rest : List Char) :
    field? width (padded width n ++ rest) = some (n, rest) := by
  rw [field?, (digits_padded width n).dropWhile_isBlank, digits?_padded hw hw hn]

theorem year?_padded (hn : n < 10 ^ 4) (rest : List Char) :
    year? (padded 4 n ++ rest) = some ((n : Int), rest) := by
  obtain ⟨c, cs, hc, hd⟩ := (digits_padded 4 n).exists_cons
  have hread : digits? 1 4 (padded 4 n ++ rest) = some (n, rest) :=
    digits?_padded (by decide) (by decide) hn rest
  rw [year?, (digits_padded 4 n).dropWhile_isBlank]
  rw [hc] at hread ⊢
  rw [List.cons_append] at hread ⊢
  split
  next he =>
    cases he
    cases hd
  next he =>
    cases he
    cases hd
  next =>
    rw [hread]
    rfl

end Numbers

def fractionChars : List Char → List Char
  | [] => []
  | row => '.' :: row

theorem fractionChars_not_blank {row : List Char} (h : ∀ c ∈ row, c.isDigit = true) :
    ∀ c ∈ fractionChars row, isBlank c = false := by
  intro c hc
  cases row with
  | nil => cases hc
  | cons d row =>
    rcases List.mem_cons.1 hc with rfl | hc
    · decide
    · exact isBlank_of_isDigit (h c hc)

def fractionNanos (row : List Char) : Nat := digitsValue row * 10 ^ (9 - row.length)

theorem fraction?_fractionChars {row rest : List Char} (hrow : ∀ c ∈ row, c.isDigit = true)
    (hlen : row.length ≤ 9) (hrest : ∀ c ∈ rest.head?, c.isDigit = false ∧ c ≠ '.') :
    fraction? (fractionChars row ++ rest) = some (fractionNanos row, rest) := by
  cases row with
  | nil =>
    cases rest with
    | nil => rfl
    | cons c rest =>
      have hc := (hrest c rfl).2
      show fraction? (c :: rest) = _
      unfold fraction?
      split
      next he =>
        cases he
        exact absurd rfl hc
      next => rfl
  | cons c cs =>
    have hspan := spanDigits_append hrow fun d hd => (hrest d hd).1
    rw [spanDigits, List.span_eq_takeWhile_dropWhile] at hspan
    have htake : (c :: cs ++ rest).takeWhile Char.isDigit = c :: cs := congrArg Prod.fst hspan
    have hkept : (c :: cs).take 9 = c :: cs := List.take_of_length_le hlen
    have hdrop : (c :: cs ++ rest).drop (c :: cs).length = rest := List.drop_left ..
    show fraction? ('.' :: (c :: cs ++ rest)) = _
    simp only [fraction?, htake, hkept, hdrop]
    rfl

end Timestamp

/-- How far a clock is ahead of the time that all clocks are set by: less than a day. -/
structure Offset where
  behind : Bool
  hours : Nat
  minutes : Nat
  hours_lt : hours < 24
  minutes_lt : minutes < 60
  deriving DecidableEq, Repr

namespace Offset

def seconds (o : Offset) : Int :=
  let size : Int := o.hours * 3600 + o.minutes * 60
  if o.behind then -size else size

def sign (o : Offset) : Char := if o.behind then '-' else '+'

def chars (o : Offset) : List Char :=
  o.sign :: (padded 2 o.hours ++ ':' :: padded 2 o.minutes)

variable (o : Offset)

theorem sign_cases : o.sign = '-' ∨ o.sign = '+' := by
  unfold sign
  split
  · exact .inl rfl
  · exact .inr rfl

theorem chars_not_blank : ∀ c ∈ o.chars, isBlank c = false := by
  have hsign : isBlank o.sign = false := by
    rcases o.sign_cases with h | h <;> rw [h] <;> decide
  have hcolon : isBlank ':' = false := by decide
  have hhours := (digits_padded 2 o.hours).not_blank.2
  have hminutes := (digits_padded 2 o.minutes).not_blank.2
  exact List.forall_mem_cons.2 ⟨hsign, List.forall_mem_append.2 ⟨hhours,
    List.forall_mem_cons.2 ⟨hcolon, hminutes⟩⟩⟩

theorem sign?_cons (rest : List Char) : sign? (o.sign :: rest) = some (o.behind, rest) := by
  unfold sign
  cases o.behind <;> rfl

theorem offset?_chars : offset? o.chars = some (o.seconds, []) := by
  have hh : o.hours < 10 ^ 2 := Nat.lt_trans o.hours_lt (by decide)
  have hm : o.minutes < 10 ^ 2 := Nat.lt_trans o.minutes_lt (by decide)
  have hhours := digits?_full (by decide) hh (':' :: padded 2 o.minutes)
  have hminutes := digits?_full (by decide) hm []
  rw [List.append_nil] at hminutes
  have hletter : o.sign ≠ 'Z' ∧ o.sign ≠ 'z' := by
    rcases o.sign_cases with h | h <;> rw [h] <;> decide
  rw [chars, offset?.eq_def]
  split
  next he => exact absurd (List.cons.inj he).1 hletter.1
  next he => exact absurd (List.cons.inj he).1 hletter.2
  next =>
    simp [o.sign?_cons, hhours, hminutes, o.hours_lt, o.minutes_lt, seconds]

end Offset

end Concordance

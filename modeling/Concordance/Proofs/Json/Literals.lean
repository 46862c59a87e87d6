import Concordance.Json.Numeral
import Concordance.Number.Print
import Mathlib

namespace Concordance

def Digits (cs : List Char) : Prop := cs ≠ [] ∧ ∀ c ∈ cs, c.isDigit = true

theorem spanDigits_append {ds rest : List Char} (hd : ∀ c ∈ ds, c.isDigit = true)
    (hr : ∀ c ∈ rest.head?, c.isDigit = false) : spanDigits (ds ++ rest) = (ds, rest) := by
  unfold spanDigits
  rw [List.span_eq_takeWhile_dropWhile, List.takeWhile_append_of_pos hd,
    List.dropWhile_append_of_pos hd]
  cases rest with
  | nil => simp
  | cons c rest =>
    have hc := hr c rfl
    simp [hc]

theorem digits_digitChars (n : Nat) : Digits (digitChars n) :=
  ⟨Nat.toDigits_ne_nil, fun _ hc => Nat.isDigit_of_mem_toDigits (by omega) (by omega) hc⟩

theorem isDigit_zeros (n : Nat) : ∀ c ∈ zeros n, c.isDigit = true := by
  intro c hc
  obtain ⟨-, rfl⟩ := List.mem_replicate.1 hc
  rfl

section Digits

variable {cs ds : List Char}

theorem Digits.append (h : Digits cs) (hd : ∀ c ∈ ds, c.isDigit = true) : Digits (cs ++ ds) :=
  ⟨by simp [h.1], List.forall_mem_append.2 ⟨h.2, hd⟩⟩

theorem Digits.after (h : Digits cs) (hd : ∀ c ∈ ds, c.isDigit = true) : Digits (ds ++ cs) :=
  ⟨by simp [h.1], List.forall_mem_append.2 ⟨hd, h.2⟩⟩

theorem Digits.take (h : Digits cs) {k : Nat} (hk : 0 < k) : Digits (cs.take k) := by
  refine ⟨?_, fun c hc => h.2 c (List.mem_of_mem_take hc)⟩
  simp [h.1]
  omega

theorem Digits.drop (h : Digits cs) {k : Nat} (hk : k < cs.length) : Digits (cs.drop k) := by
  refine ⟨?_, fun c hc => h.2 c (List.mem_of_mem_drop hc)⟩
  simp
  omega

end Digits

theorem head?_digitChars {n : Nat} (h : 0 < n) : (digitChars n).head? ≠ some '0' := by
  unfold digitChars
  induction n using Nat.strongRecOn with
  | ind n ih =>
    by_cases hb : n < 10
    · rw [Nat.toDigits_of_lt_base hb]
      have : ∀ k < 10, 0 < k → [Nat.digitChar k].head? ≠ some '0' := by decide
      exact this n hb h
    · rw [Nat.toDigits_of_base_le (by omega) (by omega)]
      have hd := ih (n / 10) (by omega) (by omega)
      rw [List.head?_append]
      cases ho : (Nat.toDigits 10 (n / 10)).head? with
      | none => simp at ho
      | some c =>
        rw [ho] at hd
        exact hd

theorem digitsValue_digitChars (n : Nat) : digitsValue (digitChars n) = n :=
  Nat.ofDigitChars_ten_toDigits

namespace Numeral

def exponentChars : Option (Bool × List Char) → List Char
  | none => []
  | some (down, power) => 'e' :: (if down then '-' else '+') :: power

def spelling (n : Numeral) : List Char :=
  withSign n.negative (n.whole ++ n.fraction.elim [] ('.' :: ·) ++ exponentChars n.exponent)

/-- Parts that make a literal: digits everywhere, and no zero in front of others. -/
structure Proper (n : Numeral) : Prop where
  whole : Digits n.whole
  lead : n.whole = ['0'] ∨ n.whole.head? ≠ some '0'
  fraction : ∀ cs, n.fraction = some cs → Digits cs
  exponent : ∀ down cs, n.exponent = some (down, cs) → Digits cs

variable {n : Numeral}

theorem readTail?_spelling (h : n.Proper) :
    readTail? n.negative n.whole n.fraction (exponentChars n.exponent) = some n := by
  obtain ⟨negative, whole, fraction, exponent⟩ := n
  cases exponent with
  | none => rfl
  | some e =>
    obtain ⟨down, power⟩ := e
    have hp := h.exponent down power rfl
    have hs : spanDigits (power ++ []) = (power, []) := spanDigits_append hp.2 (by simp)
    rw [List.append_nil] at hs
    have ht : takeSign ((if down = true then '-' else '+') :: power) = (down, power) := by
      cases down <;> rfl
    simp [exponentChars, readTail?, ht, hs, hp.1]

section Whole

variable (negative : Bool) {c : Char} {cs rest : List Char} (hc : c ≠ '-')
  (hz : ∀ d rest, c :: cs ≠ '0' :: d :: rest)
include hc hz

theorem read?_whole (hr : spanDigits (c :: (cs ++ rest)) = (c :: cs, rest))
    (hp : rest.head? ≠ some '.') :
    read? (withSign negative (c :: (cs ++ rest))) = readTail? negative (c :: cs) none rest := by
  cases rest with
  | nil => cases negative <;> simp [read?, withSign, hc] <;> grind
  | cons d rest => cases negative <;> simp [read?, withSign, hr, hc] <;> grind

theorem read?_fraction (hr : spanDigits (c :: (cs ++ '.' :: rest)) = (c :: cs, '.' :: rest)) :
    read? (withSign negative (c :: (cs ++ '.' :: rest))) =
      if (spanDigits rest).1 = [] then none
      else readTail? negative (c :: cs) (some (spanDigits rest).1) (spanDigits rest).2 := by
  cases negative <;> simp [read?, withSign, hr, hc]

end Whole

theorem read?_spelling (h : n.Proper) : read? n.spelling = some n := by
  have ht := readTail?_spelling h
  obtain ⟨negative, whole, fraction, exponent⟩ := n
  obtain ⟨⟨hn, hw⟩, hl, hf, -⟩ := h
  simp only at hn hw hl hf ht
  obtain ⟨c, cs, rfl⟩ := List.exists_cons_of_ne_nil hn
  have hc : c ≠ '-' := by
    rintro rfl
    exact absurd (hw '-' (by simp)) (by decide)
  have hz : ∀ d rest, c :: cs ≠ '0' :: d :: rest := by
    rintro d rest he
    cases he
    simp at hl
  have htail : ∀ d ∈ (exponentChars exponent).head?, d.isDigit = false ∧ d ≠ '.' := by
    cases exponent with
    | none => simp [exponentChars]
    | some e => simp [exponentChars]
  have hrest : ∀ d ∈ (fraction.elim [] ('.' :: ·) ++ exponentChars exponent).head?,
      d.isDigit = false := by
    cases fraction with
    | none => exact fun d hd => (htail d hd).1
    | some f => simp
  have hs := spanDigits_append hw hrest
  have hsign : spelling ⟨negative, c :: cs, fraction, exponent⟩ =
      withSign negative (c :: cs ++ (fraction.elim [] ('.' :: ·) ++ exponentChars exponent)) := by
    simp [spelling]
  rw [hsign]
  cases fraction with
  | none =>
    have hp : (exponentChars exponent).head? ≠ some '.' := fun hd => (htail '.' hd).2 rfl
    simpa using (read?_whole negative hc hz hs hp).trans ht
  | some f =>
    have hf := hf f rfl
    have hsf := spanDigits_append hf.2 fun d hd => (htail d hd).1
    have hr : spanDigits (c :: (cs ++ '.' :: (f ++ exponentChars exponent))) =
        (c :: cs, '.' :: (f ++ exponentChars exponent)) := hs
    simpa [hsf, hf.1, ht] using read?_fraction negative hc hz hr

/-- A literal with a point or an exponent. -/
def Marked (n : Numeral) : Prop := n.fraction.isSome = true ∨ n.exponent.isSome = true

theorem Marked.int? (h : n.Marked) : n.int? = none := by
  unfold Numeral.int?
  rcases h with h | h <;> simp [h]

def Unsigned (cs : List Char) : Prop :=
  ∃ n : Numeral, n.Proper ∧ n.Marked ∧ n.negative = false ∧ n.spelling = cs

section Unsigned

variable {whole fraction power : List Char}

theorem Unsigned.point (hw : Digits whole) (hl : whole = ['0'] ∨ whole.head? ≠ some '0')
    (hf : Digits fraction) : Unsigned (whole ++ '.' :: fraction) := by
  refine ⟨⟨false, whole, some fraction, none⟩, ⟨hw, hl, ?_, by simp⟩, .inl rfl, rfl, ?_⟩
  · rintro cs hc
    cases hc
    exact hf
  · simp [spelling, exponentChars, withSign]

theorem Unsigned.exponent (hw : Digits whole) (hl : whole.head? ≠ some '0') (down : Bool)
    (hp : Digits power) : Unsigned (whole ++ 'e' :: (if down then '-' else '+') :: power) := by
  refine ⟨⟨false, whole, none, some (down, power)⟩, ⟨hw, .inr hl, by simp, ?_⟩, .inr rfl, rfl, ?_⟩
  · rintro _ cs hc
    cases hc
    exact hp
  · simp [spelling, exponentChars, withSign]

theorem Unsigned.point_exponent (hw : Digits whole) (hl : whole.head? ≠ some '0')
    (hf : Digits fraction) (down : Bool) (hp : Digits power) :
    Unsigned (whole ++ '.' :: fraction ++ 'e' :: (if down then '-' else '+') :: power) := by
  refine ⟨⟨false, whole, some fraction, some (down, power)⟩, ⟨hw, .inr hl, ?_, ?_⟩,
    .inl rfl, rfl, ?_⟩
  · rintro cs hc
    cases hc
    exact hf
  · rintro _ cs hc
    cases hc
    exact hp
  · simp [spelling, exponentChars, withSign]

theorem Unsigned.withSign {cs : List Char} (h : Unsigned cs) (negative : Bool) :
    ∃ n : Numeral, n.Proper ∧ n.Marked ∧ n.spelling = Concordance.withSign negative cs := by
  obtain ⟨n, hp, hm, hn, rfl⟩ := h
  refine ⟨{ n with negative }, ⟨hp.whole, hp.lead, hp.fraction, hp.exponent⟩, hm, ?_⟩
  simp [spelling, hn, Concordance.withSign]

end Unsigned

def ofInt (n : Int) : Numeral := ⟨n < 0, digitChars n.natAbs, none, none⟩

theorem ofInt_proper (n : Int) : (ofInt n).Proper where
  whole := digits_digitChars n.natAbs
  lead := by
    rcases Nat.eq_zero_or_pos n.natAbs with hz | hp
    · left
      simp [ofInt, hz, digitChars]
    · exact .inr (head?_digitChars hp)
  fraction cs h := by cases h
  exponent down cs h := by cases h

theorem ofInt_spelling (n : Int) : (ofInt n).spelling = (toString n).toList := by
  rw [Int.toString_eq_repr, Int.repr_eq_if]
  by_cases hn : n < 0
  · have ha : (-n).toNat = n.natAbs := by omega
    simp [ofInt, spelling, exponentChars, withSign, hn, digitChars, Int.not_le.2 hn, ha]
  · have ha : n.toNat = n.natAbs := by omega
    simp [ofInt, spelling, exponentChars, withSign, hn, digitChars, Int.not_lt.1 hn, ha]

theorem int?_ofInt {n : Int} (hl : -2 ^ 63 ≤ n) (hu : n < 2 ^ 64) : (ofInt n).int? = some n := by
  have hv : digitsValue (digitChars n.natAbs) = n.natAbs := digitsValue_digitChars _
  unfold int? ofInt
  simp only [hv, Option.isSome_none, Bool.or_self, Bool.false_eq_true, if_false, decide_eq_true_eq,
    Bool.and_eq_true, wordLimit]
  by_cases hn : n < 0
  · have hs : -(n.natAbs : Int) = n := by omega
    rw [if_pos hn, if_pos (by omega), hs]
  · have hs : (n.natAbs : Int) = n := by omega
    rw [if_neg hn, if_pos (by omega), hs]

end Numeral

namespace Exact

theorem not_owns_zero {x : Exact} (h : x.mantissa ≠ 0) (k : Int) : x.owns k 0 = false := by
  have hr : x.reachBelow ≤ 2 := by
    unfold reachBelow
    split <;> omega
  have hv : 0 < x.valueFactor k :=
    Nat.mul_pos (Nat.pow_pos (by omega)) (Nat.pow_pos (by omega))
  have hl : 0 < (4 * x.mantissa - x.reachBelow) * x.valueFactor k := Nat.mul_pos (by omega) hv
  unfold owns
  split
  · simp
    omega
  · simp

theorem onGrid?_ne_zero {x : Exact} (h : x.mantissa ≠ 0) {k : Int} {n : Nat} {tie : Tie}
    (hn : x.onGrid? tie k = some n) : n ≠ 0 := by
  have hz := not_owns_zero h k
  rintro rfl
  unfold onGrid? roundDiv at hn
  simp only at hn
  generalize hb : 4 * x.mantissa * x.valueFactor k / x.gridFactor k = below at hn
  have hb0 : x.owns k below = true → below ≠ 0 := by
    rintro ht rfl
    simp [hz] at ht
  split at hn
  next ho _ =>
    have := hb0 ho
    cases tie <;> grind
  next ho _ =>
    have := hb0 ho
    grind
  next => grind
  next => cases hn

theorem search_digits_ne_zero {x : Exact} (h : x.mantissa ≠ 0) (tie : Tie) (count : Nat) (k : Int) :
    (x.search tie count k).digits ≠ 0 := by
  induction count generalizing k with
  | zero => exact h
  | succ count ih =>
    unfold search
    split
    next n hn => exact onGrid?_ne_zero h hn
    next => exact ih (k - 1)

theorem shortest_exponent {x : Exact} {tie : Tie} (h : (x.shortest tie).digits = 0) :
    (x.shortest tie).exponent = 0 := by
  unfold shortest at h ⊢
  split at h
  next hm => simp [hm]
  next hm => exact absurd h (search_digits_ne_zero (by simpa using hm) tie 20 _)

end Exact

namespace Decimal

variable {d : Decimal}

theorem positional_unsigned (h : d.digits = 0 → d.exponent = 0) :
    Numeral.Unsigned (d.positional ['.', '0']) := by
  have hd := digits_digitChars d.digits
  have hlead : 0 < d.digits → (digitChars d.digits).head? ≠ some '0' := head?_digitChars
  unfold positional
  dsimp only
  split
  next he =>
    have hl : digitChars d.digits ++ zeros d.exponent.toNat = ['0'] ∨
        (digitChars d.digits ++ zeros d.exponent.toNat).head? ≠ some '0' := by
      rcases Nat.eq_zero_or_pos d.digits with hz | hp
      · left
        simp [hz, h hz, zeros, digitChars]
      · right
        simpa [List.head?_append, List.head?_eq_some_head hd.1] using hlead hp
    exact .point (hd.append (isDigit_zeros _)) hl ⟨by simp, by simp⟩
  next he =>
    have hp : 0 < d.digits := by
      rcases Nat.eq_zero_or_pos d.digits with hz | hp
      · exact absurd (h hz) (by omega)
      · exact hp
    split
    next hs =>
      have hk : (digitChars d.digits).length - (-d.exponent).toNat ≠ 0 := by omega
      refine .point (hd.take (by omega)) (.inr ?_) (hd.drop (by omega))
      simpa [List.head?_take, hk] using hlead hp
    next hs =>
      have hz : Digits ['0'] := ⟨by simp, by simp⟩
      exact .point hz (.inl rfl) (hd.after (isDigit_zeros _))

theorem scientific_unsigned (h : 0 < d.digits) : Numeral.Unsigned d.scientific := by
  have hd := digits_digitChars d.digits
  have hlead := head?_digitChars h
  have hp := digits_digitChars d.magnitude.natAbs
  unfold scientific
  dsimp only
  split
  next lead second rest he =>
    rw [he] at hd hlead
    have hf : Digits [lead] := hd.take (k := 1) (by omega)
    have hr : Digits (second :: rest) := hd.drop (k := 1) (by simp)
    simpa using Numeral.Unsigned.point_exponent hf (by simpa using hlead) hr (d.magnitude < 0) hp
  next he =>
    simpa using Numeral.Unsigned.exponent hd hlead (d.magnitude < 0) hp

end Decimal

theorem jsonDouble_spelling {x : Float} {e : Exact} (h : Exact.ofFloat? x = some e) :
    ∃ n : Numeral, n.Proper ∧ n.Marked ∧ n.spelling = jsonDouble x := by
  have hz : (e.shortest .even).digits = 0 → (e.shortest .even).exponent = 0 :=
    Exact.shortest_exponent
  unfold jsonDouble
  rw [h]
  dsimp only
  split
  next hc => exact (Decimal.positional_unsigned hz).withSign e.negative
  next hc =>
    have hpos : 0 < (e.shortest .even).digits := by
      simp at hc
      omega
    exact (Decimal.scientific_unsigned hpos).withSign e.negative

end Concordance

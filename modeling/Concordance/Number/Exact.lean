namespace Concordance

/-- The number `mantissa * 2 ^ exponent`, negated if `negative`. -/
structure Exact where
  negative : Bool
  mantissa : Nat
  exponent : Int
  deriving DecidableEq, Repr

def Exact.ofBits? (bits : Nat) : Option Exact :=
  let negative : Bool := bits / 0x8000000000000000 % 2 == 1
  let biased : Nat := bits / 0x10000000000000 % 0x800
  let fraction : Nat := bits % 0x10000000000000
  if biased == 2047 then none
  else if biased == 0 then some ⟨negative, fraction, -1074⟩
  else some ⟨negative, 0x10000000000000 + fraction, (biased : Int) - 1075⟩

def Exact.ofFloat? (x : Float) : Option Exact := Exact.ofBits? x.toBits.toNat

def Exact.numerator (x : Exact) : Nat := x.mantissa * Nat.pow 2 x.exponent.toNat

def Exact.denominator (x : Exact) : Nat := Nat.pow 2 (-x.exponent).toNat

theorem Exact.denominator_pos (x : Exact) : 0 < x.denominator := Nat.two_pow_pos _

inductive Tie where
  | up | even
  deriving DecidableEq, Repr

def roundDiv (tie : Tie) (num den : Nat) : Nat :=
  let q := num / den
  let twice := 2 * (num % den)
  if twice < den then q
  else if den < twice then q + 1
  else match tie with
    | .up => q + 1
    | .even => q + q % 2

theorem roundDiv_near (tie : Tie) (num : Nat) {den : Nat} (h : 0 < den) :
    2 * num ≤ (2 * roundDiv tie num den + 1) * den ∧
      2 * roundDiv tie num den * den ≤ 2 * num + den := by
  have split : den * (num / den) + num % den = num := Nat.div_add_mod num den
  have below : num % den < den := Nat.mod_lt _ h
  have comm : den * (num / den) = num / den * den := Nat.mul_comm ..
  have parity : num / den % 2 = 0 ∨ num / den % 2 = 1 := Nat.mod_two_eq_zero_or_one _
  unfold roundDiv
  simp only
  generalize num / den = q at *
  generalize num % den = r at *
  split
  · constructor <;> grind
  · split
    · constructor <;> grind
    · cases tie
      · constructor <;> grind
      · rcases parity with p | p <;> simp only [p] <;> constructor <;> grind

end Concordance

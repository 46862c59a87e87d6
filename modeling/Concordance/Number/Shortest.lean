import Concordance.Number.Exact

/-!
The shortest decimal that reads back as a given double, and of the shortest ones the nearest.

A double owns the interval of numbers that round to it, which reaches half way to its neighbours
and holds its ends iff the mantissa is even.  Decimal grids are tried from coarse to fine; on each
only the two points around the value can be nearest, so only these are tested.
-/

namespace Concordance

structure Decimal where
  digits : Nat
  exponent : Int
  deriving DecidableEq, Repr

namespace Exact

/-- The quarter units that the interval reaches below the value: fewer where the exponent steps. -/
def reachBelow (x : Exact) : Nat :=
  if x.mantissa == 0x10000000000000 && x.exponent != -1074 then 1 else 2

/-- The factor that turns points of the grid `10 ^ k` into the common unit. -/
def gridFactor (x : Exact) (k : Int) : Nat := Nat.pow 10 k.toNat * Nat.pow 2 (2 - x.exponent).toNat

/-- The factor that turns quarter units of the double into the common unit. -/
def valueFactor (x : Exact) (k : Int) : Nat :=
  Nat.pow 2 (x.exponent - 2).toNat * Nat.pow 10 (-k).toNat

def owns (x : Exact) (k : Int) (n : Nat) : Bool :=
  let point := n * x.gridFactor k
  let low := (4 * x.mantissa - x.reachBelow) * x.valueFactor k
  let high := (4 * x.mantissa + 2) * x.valueFactor k
  if x.mantissa % 2 == 0 then low ≤ point && point ≤ high else low < point && point < high

/-- The point of the grid `10 ^ k` that stands for the double, if one does: the nearer of the two
around the value. -/
def onGrid? (tie : Tie) (x : Exact) (k : Int) : Option Nat :=
  let value := 4 * x.mantissa * x.valueFactor k
  let below := value / x.gridFactor k
  match x.owns k below, x.owns k (below + 1) with
  | true, true => some (roundDiv tie value (x.gridFactor k))
  | true, false => some below
  | false, true => some (below + 1)
  | false, false => none

def search (tie : Tie) (x : Exact) : Nat → Int → Decimal
  | 0, k => ⟨x.mantissa, k⟩
  | count + 1, k =>
    match x.onGrid? tie k with
    | some n => ⟨n, k⟩
    | none => search tie x count (k - 1)

def decade (x : Exact) : Int :=
  ((x.mantissa.log2 : Int) + 1 + x.exponent) * 30103 / 100000 + 1

/-- The shortest decimal that reads back as the double; its sign is left aside. -/
def shortest (tie : Tie) (x : Exact) : Decimal :=
  if x.mantissa == 0 then ⟨0, 0⟩ else x.search tie 20 x.decade

end Exact

end Concordance

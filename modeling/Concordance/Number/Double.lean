import Concordance.Number.Scalar

/-!
Doubles as scores.  A double that is no number still has a sign, and ranking puts the negative ones
last and the positive ones first.  An operation on a value that is no number hands that value on;
an invalid operation on two numbers makes a negative one.
-/

namespace Concordance

/-- A double; when it is no number, `signed` says whether it counts as negative. -/
structure Double where
  value : Float
  signed : Bool

namespace Double

def ofFloat (x : Float) : Double := ⟨x, false⟩

def map (f : Float → Float) (x : Double) : Double :=
  ⟨f x.value, if x.value.isNaN then x.signed else true⟩

def map₂ (f : Float → Float → Float) (x y : Double) : Double :=
  ⟨f x.value y.value,
    if x.value.isNaN then x.signed else if y.value.isNaN then y.signed else true⟩

/-- The place of a double in the total order: below all numbers, among them by their bits, or above
them. -/
def rank (x : Double) : Int :=
  if x.value.isNaN then (if x.signed then -0x8000000000000000 else 0x8000000000000000)
  else
    let bits := x.value.toBits.toNat
    if bits < 0x8000000000000000 then bits else 0x7FFFFFFFFFFFFFFF - bits

instance : Scalar Double where
  add := map₂ (· + ·)
  sub := map₂ (· - ·)
  mul := map₂ (· * ·)
  div := map₂ (· / ·)
  neg x := ⟨-x.value, !x.signed⟩
  ofNat n := ofFloat (Float.ofNat n)
  log := map Float.log
  exp := map Float.exp
  isZero x := x.value == 0
  order x y := compare x.rank y.rank

end Double

end Concordance

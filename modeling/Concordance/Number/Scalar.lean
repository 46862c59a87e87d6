/-!
The numbers that scores are made of.  Score formulas are written once over this interface, so that
the same definition runs on doubles and can be read over the reals.
-/

namespace Concordance

/-- Arithmetic, logarithm, exponential, a test for zero and an order to rank by. -/
class Scalar (α : Type) extends Add α, Sub α, Mul α, Div α, Neg α where
  ofNat : Nat → α
  log : α → α
  exp : α → α
  isZero : α → Bool
  order : α → α → Ordering

namespace Scalar

variable {α : Type} [Scalar α]

def zero : α := ofNat 0

def one : α := ofNat 1

def half : α := ofNat 1 / ofNat 2

end Scalar

end Concordance

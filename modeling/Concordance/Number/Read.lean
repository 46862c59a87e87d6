import Concordance.Number.Double

namespace Concordance

def digitValue (c : Char) : Nat := c.toNat - '0'.toNat

def digitsValue (cs : List Char) : Nat := cs.foldl (fun n c => 10 * n + digitValue c) 0

def spanDigits (cs : List Char) : List Char × List Char := cs.span Char.isDigit

def takeSign : List Char → Bool × List Char
  | '-' :: cs => (true, cs)
  | '+' :: cs => (false, cs)
  | cs => (false, cs)

/-- The double nearest to `n * 10 ^ exponent`.  Far outside the range of doubles the answer is
infinity or zero whatever the digits are. -/
def nearestDouble (n : Nat) (exponent : Int) : Float :=
  let size := exponent + (Nat.toDigits 10 n).length
  if n == 0 || size < -400 then 0
  else if 400 < size then 1 / 0
  else if exponent < 0 then Float.ofScientific n true exponent.natAbs
  else Float.ofScientific n false exponent.natAbs

def readExponent? : List Char → Option Int
  | [] => some 0
  | c :: cs =>
    if c == 'e' || c == 'E' then
      let (negative, cs) := takeSign cs
      let (digits, rest) := spanDigits cs
      if digits.isEmpty || !rest.isEmpty then none
      else some (if negative then -(digitsValue digits : Int) else digitsValue digits)
    else none

def readMagnitude? (cs : List Char) : Option Float :=
  let (whole, rest) := spanDigits cs
  let (fraction, rest) := match rest with
    | '.' :: rest => spanDigits rest
    | rest => ([], rest)
  if whole.isEmpty && fraction.isEmpty then none
  else (readExponent? rest).map fun exponent =>
    nearestDouble (digitsValue (whole ++ fraction)) (exponent - fraction.length)

def readDouble? (s : String) : Option Double :=
  let (negative, cs) := takeSign s.toList
  let name := String.ofList (cs.map Char.toLower)
  if name == "nan" then some ⟨0 / 0, negative⟩
  else if name == "inf" || name == "infinity" then
    some (.ofFloat (if negative then -(1 / 0) else 1 / 0))
  else (readMagnitude? cs).map fun x => .ofFloat (if negative then -x else x)

end Concordance

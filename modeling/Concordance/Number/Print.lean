import Concordance.Number.Shortest

namespace Concordance

def digitChars (n : Nat) : List Char := Nat.toDigits 10 n

def zeros (n : Nat) : List Char := List.replicate n '0'

def withSign (negative : Bool) (cs : List Char) : List Char := if negative then '-' :: cs else cs

namespace Decimal

def positional (d : Decimal) (tail : List Char) : List Char :=
  let digits := digitChars d.digits
  if 0 ≤ d.exponent then digits ++ zeros d.exponent.toNat ++ tail
  else
    let places := (-d.exponent).toNat
    if places < digits.length then
      digits.take (digits.length - places) ++ '.' :: digits.drop (digits.length - places)
    else '0' :: '.' :: zeros (places - digits.length) ++ digits

def magnitude (d : Decimal) : Int := d.exponent + (digitChars d.digits).length - 1

def scientific (d : Decimal) : List Char :=
  let point := match digitChars d.digits with
    | lead :: second :: rest => lead :: '.' :: second :: rest
    | digits => digits
  let power := d.magnitude
  point ++ 'e' :: (if power < 0 then '-' else '+') :: digitChars power.natAbs

end Decimal

/-- A finite double in JSON: shortest digits, positional from `0.00001` to below `10 ^ 16`, always
with a point or an exponent, ties to the even digit.  Null stands for every other double. -/
def jsonDouble (x : Float) : List Char :=
  match Exact.ofFloat? x with
  | none => ['n', 'u', 'l', 'l']
  | some e =>
    let d := e.shortest .even
    withSign e.negative <|
      if d.digits == 0 || (-5 ≤ d.magnitude && d.magnitude < 16) then d.positional ['.', '0']
      else d.scientific

def nonFinite (x : Float) : List Char :=
  if x.isNaN then ['N', 'a', 'N'] else withSign (x < 0) ['i', 'n', 'f']

/-- A double in a message: shortest digits, never an exponent, ties to the larger digit. -/
def plainDouble (x : Float) : List Char :=
  match Exact.ofFloat? x with
  | none => nonFinite x
  | some e => withSign e.negative ((e.shortest .up).positional [])

/-- A double with a fixed number of places: the exact value rounded, ties to the even digit. -/
def fixedDouble (places : Nat) (x : Float) : List Char :=
  match Exact.ofFloat? x with
  | none => nonFinite x
  | some e =>
    let n := roundDiv .even (e.numerator * Nat.pow 10 places) e.denominator
    let digits := digitChars n
    let padded := zeros (places + 1 - digits.length) ++ digits
    let whole := padded.take (padded.length - places)
    withSign e.negative <|
      if places == 0 then whole else whole ++ '.' :: padded.drop (padded.length - places)

end Concordance

import Concordance.Json.Basic
import Concordance.Number.Read

/-!
Number literals of JSON.  A literal without point and exponent is a whole number if it fits 64 bits.
Every other literal is a double: its leading digits, as many as fit a 64-bit word, scaled by a power
of ten, with one rounding for the digits and one for each scaling.
-/

namespace Concordance

structure Numeral where
  negative : Bool
  whole : List Char
  fraction : Option (List Char)
  exponent : Option (Bool × List Char)
  deriving DecidableEq, Repr

namespace Numeral

def readTail? (negative : Bool) (whole : List Char) (fraction : Option (List Char)) :
    List Char → Option Numeral
  | [] => some ⟨negative, whole, fraction, none⟩
  | c :: cs =>
    if c == 'e' || c == 'E' then
      let (down, cs) := takeSign cs
      let (digits, rest) := spanDigits cs
      if digits.isEmpty || !rest.isEmpty then none
      else some ⟨negative, whole, fraction, some (down, digits)⟩
    else none

/-- Reads a literal: no leading zeros, and a digit on both sides of a point. -/
def read? (cs : List Char) : Option Numeral :=
  let (negative, cs) := match cs with
    | '-' :: cs => (true, cs)
    | cs => (false, cs)
  let (whole, rest) := spanDigits cs
  let leadingZero := match whole with
    | '0' :: _ :: _ => true
    | _ => false
  if whole.isEmpty || leadingZero then none
  else match rest with
    | '.' :: rest =>
      let (fraction, rest) := spanDigits rest
      if fraction.isEmpty then none else readTail? negative whole (some fraction) rest
    | rest => readTail? negative whole none rest

def wordLimit : Nat := 0x10000000000000000

/-- Appends digits to `n` while the result fits 64 bits.  Answers with the number and the digits
left over. -/
def fill (n : Nat) : List Char → Nat × List Char
  | [] => (n, [])
  | c :: cs =>
    let next := 10 * n + digitValue c
    if next < wordLimit then fill next cs else (n, c :: cs)

def powerOfTen (n : Nat) : Float := Float.ofScientific 1 false n

/-- Divides by `10 ^ n`, at most 308 places at a time. -/
def scaleDown (x : Float) (n : Nat) : Float :=
  if h : n ≤ 308 then x / powerOfTen n
  else if x == 0 then x
  else scaleDown (x / powerOfTen 308) (n - 308)
termination_by n

def scale? (digits : Nat) (exponent : Int) : Option Float :=
  let x := Float.ofNat digits
  if exponent < 0 then some (scaleDown x exponent.natAbs)
  else if 308 < exponent then (if x == 0 then some x else none)
  else
    let y := x * powerOfTen exponent.toNat
    if y.isInf then none else some y

def exponentLimit : Nat := 0x7FFFFFFF

/-- The magnitude of the literal as a double.  Whole digits that do not fit only scale; digits after
the point that do not fit are dropped.  An exponent beyond its limit decides by its sign alone. -/
def magnitude? (n : Numeral) : Option Float :=
  let (digits, surplus) := fill 0 n.whole
  let fraction := n.fraction.getD []
  let (digits, dropped) := fill digits fraction
  let places : Int := (surplus.length : Int) - (fraction.length - dropped.length : Nat)
  match n.exponent with
  | none => scale? digits places
  | some (down, power) =>
    let power := digitsValue power
    if exponentLimit < power then (if digits != 0 && !down then none else some 0)
    else scale? digits (if down then places - power else places + power)

def int? (n : Numeral) : Option Int :=
  let value := digitsValue n.whole
  if n.fraction.isSome || n.exponent.isSome then none
  else if n.negative then
    (if 0 < value && value ≤ 0x8000000000000000 then some (-(value : Int)) else none)
  else if value < wordLimit then some value else none

def double? (n : Numeral) : Option Float :=
  n.magnitude?.map fun x => if n.negative then -x else x

def json? (n : Numeral) : Option Json :=
  match n.int? with
  | some i => some (.int i)
  | none => n.double?.map .double

end Numeral

end Concordance

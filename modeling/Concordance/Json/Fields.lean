import Concordance.Json.Draft

/-!
Reading values of known shape from a draft.  A structure is written as an object with its fields as
members, in any order and among members that do not matter, or as an array of its fields in order.
-/

namespace Concordance.Json

structure Fields where
  inOrder : Bool
  values : List (Option Draft)

namespace Fields

/-- Enters a member; one that names no field is ignored, and a field that comes again is a fault. -/
def put? (names : List String) (values : List (Option Draft)) (member : Option String × Draft) :
    Option (List (Option Draft)) := do
  let name ← member.1
  match names.idxOf? name with
  | none => some values
  | some i =>
    match values[i]? with
    | some none => some (values.set i (some member.2))
    | _ => none

def read? (names : List String) : Draft → Option Fields
  | .obj members =>
    (members.foldlM (put? names) (names.map fun _ => none)).map fun values => ⟨false, values⟩
  | .arr items =>
    if items.length ≤ names.length then some ⟨true, items.map some⟩ else none
  | _ => none

def at? (f : Fields) (i : Nat) : Option Draft := (f.values[i]?).join

def need? {α : Type} (f : Fields) (i : Nat) (read : Draft → Option α) : Option α :=
  (f.at? i).bind read

def nullable? {α : Type} (read : Draft → Option α) : Draft → Option (Option α)
  | .null => some none
  | d => (read d).map some

def mayBeNull? {α : Type} (f : Fields) (i : Nat) (read : Draft → Option α) :
    Option (Option α) :=
  match f.at? i with
  | none => if f.inOrder then none else some none
  | some d => nullable? read d

/-- A field that may be null or left out of an object or an array. -/
def mayBeAbsent? {α : Type} (f : Fields) (i : Nat) (read : Draft → Option α) :
    Option (Option α) :=
  match f.at? i with
  | none => some none
  | some d => nullable? read d

end Fields

namespace Draft

def text? : Draft → Option String
  | .str text => text
  | _ => none

def nat? (limit : Nat) : Draft → Option Nat
  | .number n =>
    match n.int? with
    | some (.ofNat k) => if k < limit then some k else none
    | _ => none
  | _ => none

def count? (d : Draft) : Option Nat := d.nat? 0x10000000000000000

def float? : Draft → Option Float
  | .number n =>
    match n.int? with
    | some i => some (Float.ofInt i)
    | none => n.double?
  | _ => none

def list? {α : Type} (read : Draft → Option α) : Draft → Option (List α)
  | .arr items => items.mapM read
  | _ => none

def namedValue? {α : Type} (read : Draft → Option α) (member : Option String × Draft) :
    Option (String × α) := do
  let name ← member.1
  let value ← read member.2
  return (name, value)

def named? {α : Type} (read : Draft → Option α) : Draft → Option (Named α)
  | .obj members =>
    (members.mapM (namedValue? read)).map fun pairs => Std.ExtTreeMap.ofList pairs compare
  | _ => none

def record? (depth : Nat) (d : Draft) : Option Record :=
  d.named? (·.json? depth)

end Draft

end Concordance.Json

import Concordance.Json.Token
import Concordance.Text.Utf8

/-!
The shape of a JSON text before its values are judged.  A draft may hold numbers too large for a
double, strings with broken characters and any depth of nesting; these are faults only where the
value is used.  Tokens are read with a stack of the arrays and objects that are open.
-/

namespace Concordance.Json

inductive Draft where
  | null
  | bool (b : Bool)
  | number (n : Numeral)
  | str (text : Option String)
  | arr (items : List Draft)
  | obj (members : List (Option String × Draft))
  deriving Inhabited

/-- An array or an object that is open, with what it holds so far, from the last to the first. -/
inductive Frame where
  | arr (items : List Draft)
  | obj (members : List (Option String × Draft)) (name : Option String)

inductive Expect where
  | value
  | item
  | name
  | anotherName
  | colon (name : Option String)
  | more
  | nothing (value : Draft)

structure Reader where
  frames : List Frame
  expect : Expect

def Reader.place (frames : List Frame) (value : Draft) : Reader :=
  match frames with
  | [] => ⟨[], .nothing value⟩
  | .arr items :: rest => ⟨.arr (value :: items) :: rest, .more⟩
  | .obj members name :: rest => ⟨.obj ((name, value) :: members) none :: rest, .more⟩

def Reader.open (frames : List Frame) : Token → Option Reader
  | .null => some (place frames .null)
  | .bool b => some (place frames (.bool b))
  | .number n => some (place frames (.number n))
  | .str text => some (place frames (.str text))
  | .openArray => some ⟨.arr [] :: frames, .item⟩
  | .openObject => some ⟨.obj [] none :: frames, .name⟩
  | _ => none

def Reader.close (frames : List Frame) : Token → Option Reader
  | .closeArray =>
    match frames with
    | .arr items :: rest => some (place rest (.arr items.reverse))
    | _ => none
  | .closeObject =>
    match frames with
    | .obj members _ :: rest => some (place rest (.obj members.reverse))
    | _ => none
  | _ => none

def Reader.setName (frames : List Frame) (name : Option String) : List Frame :=
  match frames with
  | .obj members _ :: rest => .obj members name :: rest
  | frames => frames

def Reader.step (r : Reader) (t : Token) : Option Reader :=
  match r.expect, t with
  | .value, t => Reader.open r.frames t
  | .item, .closeArray => close r.frames .closeArray
  | .item, t => Reader.open r.frames t
  | .name, .closeObject => close r.frames .closeObject
  | .name, .str name => some ⟨r.frames, .colon name⟩
  | .anotherName, .str name => some ⟨r.frames, .colon name⟩
  | .colon name, .colon => some ⟨setName r.frames name, .value⟩
  | .more, .comma =>
    match r.frames with
    | .arr _ :: _ => some ⟨r.frames, .value⟩
    | .obj _ _ :: _ => some ⟨r.frames, .anotherName⟩
    | [] => none
  | .more, t => close r.frames t
  | _, _ => none

def Draft.read? (cs : List (Option Char)) : Option Draft :=
  match (tokens? cs).bind fun ts => ts.foldlM Reader.step ⟨[], .value⟩ with
  | some ⟨_, .nothing value⟩ => some value
  | _ => none

def Draft.ofText? (s : String) : Option Draft := Draft.read? (spellText s)

/-- The shape of a JSON text in bytes.  Bytes that are no text are a fault only in strings that are
used. -/
def Draft.ofBytes? (bytes : List UInt8) : Option Draft := Draft.read? (spell bytes)

mutual

/-- The value of a draft that nests at most `depth` deep and is sound throughout. -/
def Draft.json? (depth : Nat) : Draft → Option Json
  | .null => some .null
  | .bool b => some (.bool b)
  | .number n => n.json?
  | .str text => text.map .str
  | .arr items =>
    match depth with
    | 0 => none
    | depth + 1 => (Draft.items? depth items).map .arr
  | .obj members =>
    match depth with
    | 0 => none
    | depth + 1 => (Draft.members? depth members).map .ofMembers

def Draft.items? (depth : Nat) : List Draft → Option (List Json)
  | [] => some []
  | item :: rest => do
    let value ← Draft.json? depth item
    let rest ← Draft.items? depth rest
    return value :: rest

def Draft.members? (depth : Nat) : List (Option String × Draft) → Option (List (String × Json))
  | [] => some []
  | (name, member) :: rest => do
    let name ← name
    let value ← Draft.json? depth member
    let rest ← Draft.members? depth rest
    return (name, value) :: rest

end

def depthLimit : Nat := 127

def readWithin? (depth : Nat) (s : String) : Option Json :=
  (Draft.ofText? s).bind (·.json? depth)

def read? (s : String) : Option Json := readWithin? depthLimit s

end Concordance.Json

import Std.Data.ExtTreeMap
import Std.Data.ExtTreeSet

namespace Concordance

inductive Json where
  | null
  | bool (b : Bool)
  | int (n : Int)
  | double (x : Float)
  | str (s : String)
  | arr (items : List Json)
  | obj (members : List (String × Json))
  deriving Inhabited

abbrev Named (β : Type) := Std.ExtTreeMap String β

abbrev WordSet := Std.ExtTreeSet String

abbrev Record := Named Json

/-- The object with these members; a name that comes again replaces the earlier member. -/
def Json.ofMembers (members : List (String × Json)) : Json :=
  .obj (Std.ExtTreeMap.ofList members compare).toList

def Json.ofNamed {β : Type} (toJson : β → Json) (values : Named β) : Json :=
  .obj (values.toList.map fun (name, value) => (name, toJson value))

def Json.ofRecord (record : Record) : Json := .obj record.toList

def Json.record? : Json → Option Record
  | .obj members => some (Std.ExtTreeMap.ofList members compare)
  | _ => none

def Json.str? : Json → Option String
  | .str s => some s
  | _ => none

def Json.kind : Json → String
  | .null => "null"
  | .bool _ => "boolean"
  | .int _ => "number"
  | .double _ => "number"
  | .str _ => "string"
  | .arr _ => "array"
  | .obj _ => "object"

end Concordance

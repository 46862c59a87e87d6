import Concordance.Json.Print

namespace Concordance

/-- The identifier of a record: its `id` as text, if that is a string, a number or a boolean. -/
def recordId? (record : Record) : Option String :=
  match record["id"]? with
  | some (.str s) => some s
  | some (.int n) => some (Json.int n).compact
  | some (.double x) => some (Json.double x).compact
  | some (.bool b) => some (Json.bool b).compact
  | _ => none

end Concordance

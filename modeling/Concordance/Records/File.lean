import Concordance.Records.Lines
import Concordance.Text.Path

namespace Concordance

/-- What follows the last full stop of a file name, unless that stop comes first. -/
def extension? (name : String) : Option String :=
  let (tail, head) := name.toList.reverse.span (· != '.')
  match head with
  | '.' :: [] => none
  | '.' :: _ => some (String.ofList tail.reverse)
  | _ => none

def isLineFile (path : String) : Bool :=
  match (Path.fileName? path).bind extension? with
  | some "jsonl" => true
  | some "ndjson" => true
  | _ => false

def readArray (path : String) (bytes : List UInt8) : Result (List Record) :=
  match (decodeText? bytes).bind Json.read? with
  | none => .error .json
  | some (.arr items) => .ok (items.filterMap Json.record?)
  | some value => .error (.record (.fileNotArray path value.kind))

def readRecords (path : String) (bytes : List UInt8) : Result (List Record) :=
  if isLineFile path then (recordLines bytes).mapM id else readArray path bytes

end Concordance

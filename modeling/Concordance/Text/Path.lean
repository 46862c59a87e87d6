namespace Concordance.Path

def names (path : String) : List String :=
  ((path.toList.splitOnP (· == '/')).filter (· != [])).map String.ofList

def isAbsolute (path : String) : Bool := path.toList.head? == some '/'

def endsInSlash (path : String) : Bool := path.toList.getLast? == some '/'

def steps (path : String) : List String := (names path).filter (· != ".")

def fileName? (path : String) : Option String :=
  match (steps path).getLast? with
  | some ".." => none
  | name => name

def above (path : String) : List String :=
  let names := steps path
  let start := if isAbsolute path then "/" else ""
  (List.range (names.length - 1)).reverse.map fun i =>
    start ++ "/".intercalate (names.take (i + 1))

end Concordance.Path

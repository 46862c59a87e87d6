import Concordance.CommandLine.Options
import Concordance.Engine.Search
import Concordance.Json.Print

namespace Concordance

def Score.toJson (s : Score Double) : Json :=
  .obj [
    ("score", .double s.total.value),
    ("components", .ofNamed (fun x : Double => .double x.value) s.components),
    ("per_term", .ofNamed (.ofNamed fun x : Double => .double x.value) s.perTerm)]

def Hit.toJson (h : Hit Double) : Json :=
  .obj [("doc_id", .str h.id), ("result", h.score.toJson)]

namespace CommandLine

structure SearchReport where
  query : String
  ranking : String
  hits : List (Hit Double)
  totalHits : Nat
  millis : Nat

structure IndexReport where
  path : String
  key : String
  documents : Nat
  vocabulary : Nat
  averageLength : Double
  millis : Nat

inductive Report where
  | search (r : SearchReport)
  | index (r : IndexReport)

def alignRight (width : Nat) (s : String) : String :=
  String.ofList (List.replicate (width - s.length) ' ') ++ s

def alignLeft (width : Nat) (s : String) : String :=
  s ++ String.ofList (List.replicate (width - s.length) ' ')

def fourPlaces (x : Double) : String := String.ofList (fixedDouble 4 x.value)

def row (rank id score : String) : String :=
  alignRight 4 rank ++ "  " ++ alignLeft 20 id ++ " " ++ alignRight 10 score

def ruler : String := String.ofList (List.replicate 36 '─')

def partLines (s : Score Double) : List String :=
  (s.components.toList.map fun (name, x) => "        " ++ name ++ ": " ++ fourPlaces x) ++
    s.perTerm.toList.map fun (token, parts) =>
      "        [" ++ token ++ "] " ++
        " ".intercalate (parts.toList.map fun (name, x) => name ++ "=" ++ fourPlaces x)

namespace SearchReport

def toJson (r : SearchReport) : Json :=
  .obj [
    ("query", .str r.query),
    ("ranking", .str r.ranking),
    ("hits", .arr (r.hits.map Hit.toJson)),
    ("total_hits", .int r.totalHits),
    ("duration_ms", .int r.millis)]

def hitLines (verbosity rank : Nat) (h : Hit Double) : List String :=
  row (toString rank) h.id (fourPlaces h.score.total) ::
    (if 1 < verbosity then partLines h.score else [])

def lines (verbosity : Nat) (r : SearchReport) : List String :=
  if r.hits.isEmpty then ["No results for '" ++ r.query ++ "'"]
  else
    [row "#" "Doc ID" "Score", ruler] ++
      (r.hits.zipIdx 1).flatMap (fun (h, rank) => hitLines verbosity rank h) ++
      (if 0 < verbosity then
        ["", toString r.totalHits ++ " hits (" ++ r.ranking ++ " ranking, " ++ toString r.millis ++
          "ms)"]
      else [])

end SearchReport

namespace IndexReport

def toJson (r : IndexReport) : Json :=
  .obj [
    ("path", .str r.path),
    ("key", .str r.key),
    ("documents", .int r.documents),
    ("vocabulary", .int r.vocabulary),
    ("avg_doc_length", .double r.averageLength.value),
    ("duration_ms", .int r.millis)]

def lines (verbosity : Nat) (r : IndexReport) : List String :=
  ("Saved index to " ++ r.path ++ " (" ++ r.key ++ ")") ::
    (if 0 < verbosity then [
      "  documents:      " ++ toString r.documents,
      "  vocabulary:     " ++ toString r.vocabulary,
      "  avg doc length: " ++ String.ofList (fixedDouble 2 r.averageLength.value),
      "  build time:     " ++ toString r.millis ++ "ms"]
    else [])

end IndexReport

namespace Report

def toJson : Report → Json
  | .search r => r.toJson
  | .index r => r.toJson

def lines (verbosity : Nat) : Report → List String
  | .search r => r.lines verbosity
  | .index r => r.lines verbosity

def text (style : Style) (r : Report) : String :=
  match style.format with
  | .human => String.join ((r.lines style.verbosity).map (· ++ "\n"))
  | .json => (if style.pretty then r.toJson.pretty else r.toJson.compact) ++ "\n"

end Report

end CommandLine

end Concordance

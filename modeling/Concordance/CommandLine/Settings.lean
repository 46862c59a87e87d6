import Concordance.CommandLine.Options
import Concordance.Engine.Search
import Concordance.Ranking.Terms

namespace Concordance.CommandLine

/-- A count: decimal digits, perhaps after a plus sign, for a number of up to 64 bits. -/
def readCount? (s : String) : Option Nat :=
  let digits := match s.toList with
    | '+' :: cs => cs
    | cs => cs
  if digits.isEmpty || !digits.all Char.isDigit then none
  else if digitsValue digits < 0x10000000000000000 then some (digitsValue digits) else none

def readFieldWeight? (s : String) : Option (String × Double) :=
  let (field, rest) := s.toList.span (· != '=')
  match rest with
  | '=' :: weight =>
    if field.isEmpty then none
    else (readDouble? (String.ofList weight)).map fun x => (String.ofList field, x)
  | _ => none

def splitCommas (s : String) : List String := (s.toList.splitOnP (· == ',')).map String.ofList

def verboseLimit : Nat := 255

structure Settings where
  verbose : Nat := 0
  quiet : Bool := false
  format : Option OutputFormat := none
  pretty : Bool := false
  fields : List String := []
  fieldWeights : List (String × Double) := []
  ngram : Option Nat := none
  stopWords : Option (List String) := none
  strict : Bool := false
  ranking : Option RankingChoice := none
  k1 : Option Double := none
  b : Option Double := none
  decayDays : Option Double := none
  limit : Option Nat := none
  explain : Bool := false
  key : Option String := none

namespace Settings

def need {α : Type} (refusal : Refusal) (value : Option α) : Except Refusal α :=
  match value with
  | some a => .ok a
  | none => .error refusal

/-- Enters a switch with the text of its value; the text does not matter where none is taken. -/
def enter (s : Settings) (switch : Switch) (text : String) : Except Refusal Settings :=
  match switch with
  | .verbose => .ok { s with verbose := min verboseLimit (s.verbose + 1) }
  | .quiet => .ok { s with quiet := true }
  | .format => do
    return { s with format := some (← need .unknownChoice (OutputFormat.ofName? text)) }
  | .pretty => .ok { s with pretty := true }
  | .help => .error .help
  | .version => .error .version
  | .fields => .ok { s with fields := s.fields ++ splitCommas text }
  | .fieldWeight => do
    let weight ← need .malformedValue (readFieldWeight? text)
    return { s with fieldWeights := s.fieldWeights ++ [weight] }
  | .ngram => do return { s with ngram := some (← need .malformedValue (readCount? text)) }
  | .stopWords => .ok { s with stopWords := some (s.stopWords.getD [] ++ splitCommas text) }
  | .strict => .ok { s with strict := true }
  | .ranking => do
    return { s with ranking := some (← need .unknownChoice (RankingChoice.ofName? text)) }
  | .k1 => do return { s with k1 := some (← need .malformedValue (readDouble? text)) }
  | .b => do return { s with b := some (← need .malformedValue (readDouble? text)) }
  | .decayDays => do
    return { s with decayDays := some (← need .malformedValue (readDouble? text)) }
  | .limit => do return { s with limit := some (← need .malformedValue (readCount? text)) }
  | .explain => .ok { s with explain := true }
  | .key => .ok { s with key := some text }

/-- The style for a command: what was given after the command goes before what was given ahead of
it.  Quiet wins over verbose. -/
def style (ahead after : Settings) : Style where
  verbosity :=
    if after.quiet || ahead.quiet then 0
    else min verboseLimit ((if after.verbose == 0 then ahead.verbose else after.verbose) + 1)
  format := (after.format.or ahead.format).getD .human
  pretty := after.pretty || ahead.pretty

def build (s : Settings) : BuildOptions where
  fields := s.fields
  fieldWeights := s.fieldWeights
  ngram := s.ngram
  stopWords := s.stopWords
  strict := s.strict

def rankingOptions (s : Settings) : RankingOptions where
  choice := s.ranking.getD .robust
  k1 := s.k1.getD Saturation.standard.k1
  b := s.b.getD Saturation.standard.b
  decayDays := s.decayDays.getD (Scalar.ofNat 30)
  limit := s.limit.getD defaultLimit
  explain := s.explain

def defaultKey : String := "index.json"

def command (s : Settings) (verb : Verb) (operands : List String) : Except Refusal Command :=
  match operands with
  | [first, second] =>
    .ok <| match verb with
      | .search => .search first second s.build s.rankingOptions
      | .index => .index first second (s.key.getD defaultKey) s.build
      | .query => .query first second (s.key.getD defaultKey) s.rankingOptions
  | _ => .error .missingOperand

end Settings

end Concordance.CommandLine

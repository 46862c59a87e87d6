import Concordance.Number.Read

namespace Concordance.CommandLine

inductive Verb where
  | search
  | index
  | query
  deriving DecidableEq, Repr

inductive Switch where
  | verbose
  | quiet
  | format
  | pretty
  | help
  | version
  | fields
  | fieldWeight
  | ngram
  | stopWords
  | strict
  | ranking
  | k1
  | b
  | decayDays
  | limit
  | explain
  | key
  deriving DecidableEq, Repr

inductive OutputFormat where
  | human
  | json
  deriving DecidableEq, Repr

inductive RankingChoice where
  | termFrequency
  | tfIdf
  | bm25
  | robust
  | fusion
  deriving DecidableEq, Repr

inductive Refusal where
  | unknownArgument
  | noValue
  | needlessValue
  | unknownChoice
  | malformedValue
  | emptyPath
  | repeated
  | missingOperand
  | missingCommand
  | unknownCommand
  | nothingAsked
  | help
  | version
  deriving DecidableEq, Repr

namespace Verb

def all : List Verb := [.search, .index, .query]

def name : Verb → String
  | .search => "search"
  | .index => "index"
  | .query => "query"

def ofName? (name : String) : Option Verb := all.find? (·.name == name)

def operandCount : Nat := 2

/-- Whether the operand at this position is a path; a path is never empty. -/
def pathAt : Verb → Nat → Bool
  | .index, _ => true
  | _, i => i == 0

def builds : Verb → Bool
  | .query => false
  | _ => true

def ranks : Verb → Bool
  | .index => false
  | _ => true

def stores : Verb → Bool
  | .search => false
  | _ => true

end Verb

namespace Switch

def all : List Switch := [
  .verbose, .quiet, .format, .pretty, .help, .version, .fields, .fieldWeight, .ngram, .stopWords,
  .strict, .ranking, .k1, .b, .decayDays, .limit, .explain, .key]

def name : Switch → String
  | .verbose => "verbose"
  | .quiet => "quiet"
  | .format => "format"
  | .pretty => "pretty"
  | .help => "help"
  | .version => "version"
  | .fields => "fields"
  | .fieldWeight => "field-weight"
  | .ngram => "ngram"
  | .stopWords => "stopwords"
  | .strict => "strict"
  | .ranking => "ranking"
  | .k1 => "k1"
  | .b => "b"
  | .decayDays => "decay-days"
  | .limit => "limit"
  | .explain => "explain"
  | .key => "key"

def letter? : Switch → Option Char
  | .verbose => some 'v'
  | .quiet => some 'q'
  | .format => some 'f'
  | .help => some 'h'
  | .version => some 'V'
  | .ranking => some 'r'
  | .limit => some 'l'
  | _ => none

def takesValue : Switch → Bool
  | .verbose | .quiet | .pretty | .help | .version | .strict | .explain => false
  | _ => true

def once : Switch → Bool
  | .verbose | .fields | .fieldWeight | .stopWords => false
  | _ => true

def knownIn (verb : Option Verb) : Switch → Bool
  | .verbose | .quiet | .format | .pretty | .help => true
  | .version => verb.isNone
  | .fields | .fieldWeight | .ngram | .stopWords | .strict => verb.any Verb.builds
  | .ranking | .k1 | .b | .decayDays | .limit | .explain => verb.any Verb.ranks
  | .key => verb.any Verb.stores

def ofName? (verb : Option Verb) (name : String) : Option Switch :=
  all.find? fun s => s.knownIn verb && s.name == name

def ofLetter? (verb : Option Verb) (c : Char) : Option Switch :=
  all.find? fun s => s.knownIn verb && s.letter? == some c

end Switch

def OutputFormat.name : OutputFormat → String
  | .human => "human"
  | .json => "json"

def OutputFormat.ofName? (name : String) : Option OutputFormat :=
  [OutputFormat.human, .json].find? (·.name == name)

def RankingChoice.name : RankingChoice → String
  | .termFrequency => "tf"
  | .tfIdf => "tfidf"
  | .bm25 => "bm25"
  | .robust => "robust"
  | .fusion => "fusion"

def RankingChoice.ofName? (name : String) : Option RankingChoice :=
  [RankingChoice.termFrequency, .tfIdf, .bm25, .robust, .fusion].find? (·.name == name)

structure BuildOptions where
  fields : List String
  fieldWeights : List (String × Double)
  ngram : Option Nat
  stopWords : Option (List String)
  strict : Bool

structure RankingOptions where
  choice : RankingChoice
  k1 : Double
  b : Double
  decayDays : Double
  limit : Nat
  explain : Bool

structure Style where
  verbosity : Nat
  format : OutputFormat
  pretty : Bool
  deriving DecidableEq, Repr

inductive Command where
  | search (records query : String) (build : BuildOptions) (ranking : RankingOptions)
  | index (records directory key : String) (build : BuildOptions)
  | query (directory query key : String) (ranking : RankingOptions)

structure Request where
  style : Style
  command : Command

end Concordance.CommandLine

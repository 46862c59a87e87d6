import Concordance.Number.Print

namespace Concordance

inductive ConfigFault where
  | ngramZero
  | weightTooLarge (field : String) (weight : Float)
  | badSaturation (k1 : Float)
  | badNormalization (b : Float)
  | weightCount (strategies weights : Nat)
  | badDecay (days : Float)
  | intervalZero
  | reported (text : String)

inductive RecordFault where
  | lineNotObject (line : Nat) (kind : String)
  | fileNotArray (path kind : String)
  | missingId
  | notText (field : String)
  | reported (text : String)
  deriving DecidableEq, Repr

inductive StorageFault where
  | notFound (key : String)
  | invalidKey (key : String)
  | renameFailed (key : String)
  | postingCount (token : String) (postings docFreq : Nat)
  | unknownDocument (token id : String)
  | unknownHistory (id : String)
  | reported (text : String)
  deriving DecidableEq, Repr

inductive Error where
  | io (text : String)
  | json
  | config (fault : ConfigFault)
  | record (fault : RecordFault)
  | duplicateDocument (id : String)
  | missingTokenHistory
  | storage (fault : StorageFault)
  | subscriber (text : String)
  | other (text : String)

def plainText (x : Float) : String := String.ofList (plainDouble x)

def ConfigFault.message : ConfigFault → String
  | .ngramZero => "ngram must be >= 1"
  | .weightTooLarge field weight =>
    "weight of field '" ++ field ++ "' must be <= 1000, got " ++ plainText weight
  | .badSaturation k1 => "BM25 k1 must be >= 0, got " ++ plainText k1
  | .badNormalization b => "BM25 b must be in [0, 1], got " ++ plainText b
  | .weightCount strategies weights =>
    "fusion needs one weight per strategy: " ++ toString strategies ++ " strategies, " ++
      toString weights ++ " weights"
  | .badDecay days => "decay_days must be > 0, got " ++ plainText days
  | .intervalZero => "save_every must be >= 1"
  | .reported text => text

def RecordFault.message : RecordFault → String
  | .lineNotObject line kind =>
    "line " ++ toString line ++ ": expected a JSON object, found " ++ kind
  | .fileNotArray path kind => path ++ ": expected a JSON array of records, found " ++ kind
  | .missingId => "missing or non-scalar 'id'"
  | .notText field => "field '" ++ field ++ "' is not a string"
  | .reported text => text

def StorageFault.message : StorageFault → String
  | .notFound key => "Not found: " ++ key
  | .invalidKey key => "Invalid storage key: '" ++ key ++ "'"
  | .renameFailed key => "Failed to rename " ++ key
  | .postingCount token postings docFreq =>
    "Inconsistent snapshot: token '" ++ token ++ "' has " ++ toString postings ++
      " postings but doc_freq " ++ toString docFreq
  | .unknownDocument token id =>
    "Inconsistent snapshot: token '" ++ token ++ "' references unknown document '" ++ id ++ "'"
  | .unknownHistory id =>
    "Inconsistent snapshot: token history for unknown document '" ++ id ++ "'"
  | .reported text => text

def Error.message : Error → String
  | .io text => "I/O error: " ++ text
  | .json => "JSON error"
  | .config fault => "Invalid configuration: " ++ fault.message
  | .record fault => "Invalid record: " ++ fault.message
  | .duplicateDocument id => "Document already indexed: " ++ id
  | .missingTokenHistory => "Phrase queries require token history"
  | .storage fault => "Storage error: " ++ fault.message
  | .subscriber text => "Subscriber error: " ++ text
  | .other text => "Anyhow error: " ++ text

abbrev Result (α : Type) := Except Error α

theorem Result.bind_eq_ok {ε α β : Type} {x : Except ε α} {f : α → Except ε β} {b : β} :
    x >>= f = .ok b ↔ ∃ a, x = .ok a ∧ f a = .ok b := by
  cases x <;> simp [bind, Except.bind]

end Concordance

import Concordance.Analysis.Tokenizer
import Concordance.Config.Basic
import Concordance.Corpus.Basic
import Concordance.Records.Basic

namespace Concordance

structure Analyzer where
  config : Config
  tokenizer : Tokenizer

namespace Analyzer

/-- An analyzer for settings whose weights are within the limit and whose windows hold a word. -/
def ofConfig (config : Config) : Result Analyzer := do
  config.check
  let tokenizer ← Tokenizer.ofNgram config.ngram
  return ⟨config, tokenizer⟩

/-- The tokens of a field, as often as the field counts; an absent or null field has none. -/
def fieldTokens (a : Analyzer) (record : Record) (field : String) : Result (List String) :=
  match record[field]? with
  | none => .ok []
  | some .null => .ok []
  | some (.str text) =>
    .ok (List.replicate (a.config.repeatCount field) (a.tokenizer.tokenize text)).flatten
  | some _ => .error (.record (.notText field))

def documentTokens (a : Analyzer) (record : Record) (fields : Option (List String)) :
    Result (List String) := do
  let parts ← (fields.getD a.config.effectiveFields).mapM (a.fieldTokens record)
  return a.config.stopWords.filter parts.flatten

/-- Adds a record to a corpus under its identifier; one without tokens is passed over. -/
def indexRecord {β : Type} (a : Analyzer) (c : Corpus β) (record : Record) :
    Result (Corpus β) :=
  match recordId? record with
  | none => .error (.record .missingId)
  | some id => do
    let tokens ← a.documentTokens record none
    if tokens.isEmpty then return c else c.record id tokens record

/-- Adds records in order; a record at fault is passed over or ends the work, as the policy says. -/
def indexRecords {β : Type} (a : Analyzer) (c : Corpus β) : List Record → Result (Corpus β)
  | [] => .ok c
  | record :: rest =>
    match a.indexRecord c record with
    | .ok c => indexRecords a c rest
    | .error e =>
      match a.config.policy with
      | .skip => indexRecords a c rest
      | .fail => .error e

def build {β : Type} (a : Analyzer) (records : List Record) : Result (Corpus β) :=
  a.indexRecords {} records

end Analyzer

end Concordance

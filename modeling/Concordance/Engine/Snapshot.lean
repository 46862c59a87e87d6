import Concordance.Config.Basic
import Concordance.Corpus.Basic
import Concordance.Json.Print
import Concordance.Text.Utf8

namespace Concordance

/-- The settings that a snapshot keeps: all but the policy for records. -/
structure SavedConfig where
  stopWords : StopWords
  weights : Named Float
  ngram : Option Nat
  fields : Option (List String)

namespace SavedConfig

def ofConfig (c : Config) : SavedConfig := ⟨c.stopWords, c.weights, c.ngram, c.fields⟩

/-- The settings of a restored engine, which skips records at fault. -/
def toConfig (s : SavedConfig) : Config where
  fields := s.fields
  ngram := s.ngram
  weights := s.weights
  stopWords := s.stopWords

def toJson (s : SavedConfig) : Json :=
  .obj ([
    ("stopwords", s.stopWords.toJson),
    ("field_weights", .ofNamed .double s.weights),
    ("ngram", .ofCount? s.ngram)] ++
    (s.fields.map fun names => ("fields", .ofNames? (some names))).toList)

def ofDraft? (d : Json.Draft) : Option SavedConfig := do
  let f ← Json.Fields.read? ["stopwords", "field_weights", "ngram", "fields"] d
  let stopWords ← f.need? 0 StopWords.ofDraft?
  let weights ← f.need? 1 (·.named? (·.float?))
  let ngram ← f.mayBeNull? 2 (·.count?)
  let fields ← f.mayBeAbsent? 3 (·.list? (·.text?))
  return { stopWords, weights, ngram, fields }

end SavedConfig

structure Snapshot where
  index : Index
  config : SavedConfig
  history : Option History

namespace Snapshot

def toJson (s : Snapshot) : Json :=
  .obj ([("index", s.index.toJson), ("config", s.config.toJson)] ++
    (s.history.map fun history =>
      ("doc_tokens", .ofNamed (fun tokens : List String => .arr (tokens.map .str)) history)).toList)

def ofDraft? (d : Json.Draft) : Option Snapshot := do
  let f ← Json.Fields.read? ["index", "config", "doc_tokens"] d
  let index ← f.need? 0 (Index.ofDraft? (Json.depthLimit - 1))
  let config ← f.need? 1 SavedConfig.ofDraft?
  let history ← f.mayBeAbsent? 2 (·.named? (·.list? (·.text?)))
  return { index, config, history }

def encode (s : Snapshot) : List UInt8 := encodeText s.toJson.compact

def ofText? (text : String) : Option Snapshot := (Json.Draft.ofText? text).bind ofDraft?

def decode? (bytes : List UInt8) : Option Snapshot := (Json.Draft.ofBytes? bytes).bind ofDraft?

end Snapshot

end Concordance

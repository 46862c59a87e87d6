import Concordance.Config.Analyzer
import Concordance.Engine.Snapshot
import Concordance.Query.Parser
import Concordance.Storage.Basic

namespace Concordance

inductive Documents (β : Type) where
  | corpus (c : Corpus β)
  | bare (index : Index)

structure Engine (β : Type) where
  analyzer : Analyzer
  documents : Documents β

namespace Engine

variable {β : Type}

def ofRecords (records : List Record) (config : Config) : Result (Engine β) := do
  let analyzer ← Analyzer.ofConfig config
  let corpus ← analyzer.build records
  return ⟨analyzer, .corpus corpus⟩

def ofCorpus (corpus : Corpus β) (config : Config) : Result (Engine β) := do
  return ⟨← Analyzer.ofConfig config, .corpus corpus⟩

def ofIndex (index : Index) (config : Config) : Result (Engine β) := do
  return ⟨← Analyzer.ofConfig config, .bare index⟩

def index (e : Engine β) : Index :=
  match e.documents with
  | .corpus c => c.index
  | .bare index => index

def corpus? (e : Engine β) : Option (Corpus β) :=
  match e.documents with
  | .corpus c => some c
  | .bare _ => none

def config (e : Engine β) : Config := e.analyzer.config

def hasHistory (e : Engine β) : Bool := e.corpus?.isSome

def parse (e : Engine β) (text : String) : Query :=
  (Query.parse text).removeStopWords e.config.stopWords

def add {m : Type → Type} [Monad m] (react : React m β) (e : Engine β) (id : String)
    (record : Record) (fields : Option (List String)) : m (Engine β × Result Unit) :=
  match e.analyzer.documentTokens record fields with
  | .error fault => pure (e, .error fault)
  | .ok tokens =>
    match e.documents with
    | .corpus c => do
      let (c, outcome) ← c.add react id tokens record
      return ({ e with documents := .corpus c }, outcome)
    | .bare index =>
      match index.add id tokens record with
      | .error fault => pure (e, .error fault)
      | .ok index => pure ({ e with documents := .bare index }, .ok ())

def snapshot (e : Engine β) : Snapshot where
  index := e.index
  config := .ofConfig e.config
  history := e.corpus?.map (·.history)

def ofSnapshot (s : Snapshot) : Result (Engine β) := do
  let index ← s.index.restore
  match s.history with
  | none => ofIndex index s.config.toConfig
  | some history =>
    match history.keys.find? fun id => !index.hasDocument id with
    | some id => .error (.storage (.unknownHistory id))
    | none => ofCorpus { index, history } s.config.toConfig

variable {m : Type → Type} [Monad m]

def save (storage : Storage m) (e : Engine β) (key : String) : m (Result Unit) :=
  storage.save key e.snapshot.encode

def decode (bytes : Bytes) : Result (Engine β) :=
  match Snapshot.decode? bytes with
  | none => .error .json
  | some snapshot => ofSnapshot snapshot

def load (storage : Storage m) (key : String) : m (Result (Engine β)) := do
  return (← storage.load key).bind decode

end Engine

end Concordance

import Concordance.CommandLine.Report
import Concordance.Engine.Basic
import Concordance.Ranking.Basic
import Concordance.Records.File
import Concordance.Storage.Directory

namespace Concordance.CommandLine

structure System (m : Type → Type) where
  files : Files m
  now : m Instant
  millis : m Nat

/-- Even shares of BM25 and of the usual blend, and a boost for recent documents. -/
def RankingOptions.fusion (o : RankingOptions) (now : Instant) : Result (Ranking Double) := do
  let bm25 ← Saturation.ofDoubles o.k1 o.b
  let booster ← Recency.ofDoubles o.decayDays Scalar.one now
  return .composite [(Scalar.half, .bm25 bm25), (Scalar.half, .robust .standard)] (some booster)

def RankingOptions.ranking (o : RankingOptions) (now : Instant) : Result (Ranking Double) :=
  match o.choice with
  | .termFrequency => .ok .termFrequency
  | .tfIdf => .ok .tfIdf
  | .bm25 => (Saturation.ofDoubles o.k1 o.b).map .bm25
  | .robust => .ok (.robust .standard)
  | .fusion => o.fusion now

/-- The settings of an index; a later weight of a field replaces an earlier one. -/
def BuildOptions.config (o : BuildOptions) : Config where
  fields := if o.fields.isEmpty then none else some o.fields
  ngram := o.ngram
  weights := o.fieldWeights.foldl (fun weights (field, x) => weights.insert field x.value) ∅
  stopWords := o.stopWords.elim .standard .ofWords
  policy := if o.strict then .fail else .skip

variable {m : Type → Type} [Monad m]

abbrev Action (m : Type → Type) := ExceptT Error m

/-- Why there are no records at a path.  A directory can be opened but holds no text, and so no JSON
array. -/
def recordsFault (path : String) (fault : FileFault) : Error :=
  match fault with
  | .directory => if isLineFile path then fault.error else .json
  | _ => fault.error

def System.records (system : System m) (path : String) : Action m (List Record) := do
  match ← system.files.read path with
  | .error fault => throw (recordsFault path fault)
  | .ok bytes => liftExcept (readRecords path bytes)

def System.storage (system : System m) (path : String) : Action m (Storage m) := do
  let directory ← ExceptT.mk (Directory.make system.files path true)
  return directory.storage system.files

def System.ranking (system : System m) (o : RankingOptions) : Action m (Ranking Double) := do
  liftExcept (o.ranking (← system.now))

def System.search (system : System m) (engine : Engine Empty) (ranking : Ranking Double)
    (query : String) (o : RankingOptions) : Action m Report := do
  let start ← system.millis
  let hits ← liftExcept <|
    if o.explain then engine.explain ranking.scorer query o.limit
    else engine.search ranking.scorer query o.limit
  let stop ← system.millis
  return .search ⟨query, ranking.name, hits, hits.length, stop - start⟩

def System.run (system : System m) : Command → Action m Report
  | .search path query build o => do
    let records ← system.records path
    let ranking ← system.ranking o
    system.search (← liftExcept (Engine.ofRecords records build.config)) ranking query o
  | .index path directory key build => do
    let start ← system.millis
    let records ← system.records path
    let engine : Engine Empty ← liftExcept (Engine.ofRecords records build.config)
    let storage ← system.storage directory
    ExceptT.mk (engine.save storage key)
    let stop ← system.millis
    return .index ⟨directory, key, engine.index.totalDocs, engine.index.vocabularySize,
      engine.index.stats.averageLength, stop - start⟩
  | .query directory query key o => do
    let storage ← system.storage directory
    let ranking ← system.ranking o
    system.search (← ExceptT.mk (Engine.load storage key)) ranking query o

def System.answer (system : System m) (request : Request) : m (Result String) :=
  ((Report.text request.style ·) <$> system.run request.command).run

end Concordance.CommandLine

import Concordance.Main
import Concordance.Engine.AutoSave
import Concordance.Storage.Memory
import Concordance.Storage.FileTree
import Concordance.Proofs.Corpus.Growth
import Concordance.Proofs.Engine.Growth
import Concordance.Proofs.Query.Reading
import Concordance.Proofs.Engine.Evaluation
import Concordance.Proofs.Engine.Restore
import Concordance.Proofs.Engine.SaveLoad
import Concordance.Proofs.Engine.Agreement
import Concordance.Proofs.Query.Rendering
import Concordance.Proofs.Query.Grammar
import Concordance.Proofs.Analysis.Tokens
import Concordance.Proofs.Number.Positive
import Concordance.Proofs.Engine.Found
import Concordance.Proofs.Engine.Phrases
import Concordance.Proofs.Engine.PlainWords
import Concordance.Proofs.Engine.Reweighting
import Concordance.Proofs.Engine.RecordOrder
import Concordance.Proofs.Engine.TextRankings
import Concordance.Proofs.Engine.StopWords
import Concordance.Proofs.Engine.Refinement
import Concordance.Proofs.Analysis.Policies
import Concordance.Proofs.Engine.Increments
import Concordance.Proofs.Corpus.Notice
import Concordance.Proofs.Engine.Isolation
import Concordance.Proofs.Engine.Schedule
import Concordance.Proofs.Storage.Atomicity
import Concordance.Proofs.Storage.Refinement
import Concordance.Proofs.Corpus.Subscriptions
import Concordance.Proofs.Engine.Overflow
import Concordance.Proofs.Engine.Bare
import Concordance.Proofs.Engine.Frequencies
import Concordance.Proofs.Ranking.Composite
import Concordance.Proofs.Ranking.Breakdown
import Concordance.Proofs.Ranking.Saturation
import Concordance.Proofs.Engine.Recency
import Concordance.Proofs.Records.Numbering
import Concordance.Proofs.Time.Notations
import Concordance.Proofs.Analysis.Segments
import Concordance.Proofs.Records.Reading
import Concordance.Proofs.Ranking.Fusion

import Concordance.Error
import Concordance.Index.Stats

/-!
The inverted index: for each token the documents that contain it, in the order they were added, with
the metadata of every document and the statistics of the corpus.
-/

namespace Concordance

/-- A document that contains a token, and how often.  Occurrences are counted in a word of 32 bits,
which begins again at zero when it overflows. -/
structure Posting where
  id : String
  frequency : UInt32
  deriving DecidableEq, Repr

def histogram (tokens : List String) : Named UInt32 :=
  tokens.foldl (fun counts token => counts.alter token fun n => some (n.getD 0 + 1)) ∅

structure Index where
  postings : Named (Array Posting) := ∅
  docFreqs : Named Nat := ∅
  documents : Named Record := ∅
  stats : CorpusStats := {}

namespace Index

def addPosting (id : String) (index : Index) (token : String) (frequency : UInt32) : Index :=
  { index with
    postings := index.postings.alter token fun ps => some ((ps.getD #[]).push ⟨id, frequency⟩)
    docFreqs := index.docFreqs.alter token fun n => some (wordCount (n.getD 0 + 1)) }

def hasDocument (index : Index) (id : String) : Bool := index.documents.contains id

def insert (index : Index) (id : String) (tokens : List String) (metadata : Record) : Index :=
  let posted := (histogram tokens).foldl (addPosting id) index
  { posted with
    documents := posted.documents.insert id metadata
    stats := posted.stats.add id tokens.length }

def add (index : Index) (id : String) (tokens : List String) (metadata : Record) : Result Index :=
  if index.hasDocument id then .error (.duplicateDocument id)
  else .ok (index.insert id tokens metadata)

/-- The documents that contain a token, in the order they were added. -/
def postingsOf (index : Index) (token : String) : Array Posting := index.postings.getD token #[]

def termFrequency (index : Index) (id token : String) : Nat :=
  ((index.postingsOf token).find? (·.id == id)).elim 0 (·.frequency.toNat)

def contains (index : Index) (id token : String) : Bool :=
  (index.postingsOf token).any (·.id == id)

def docFreq (index : Index) (token : String) : Nat := index.docFreqs.getD token 0

def metadata? (index : Index) (id : String) : Option Record := index.documents[id]?

def totalDocs (index : Index) : Nat := index.stats.total

def vocabularySize (index : Index) : Nat := index.postings.size

def docLength? (index : Index) (id : String) : Option Nat := index.stats.lengths[id]?

/-- The fault of one token of a restored index: a document frequency that is not the number of
postings, or else a posting of a document of unknown length. -/
def fault? (index : Index) (token : String) (postings : Array Posting) : Option StorageFault :=
  if index.docFreq token != postings.size then
    some (.postingCount token postings.size (index.docFreq token))
  else
    (postings.find? fun p => !index.stats.lengths.contains p.id).map fun p =>
      .unknownDocument token p.id

/-- Accepts an index that comes from outside unless one of its tokens is at fault; the first token
in order decides. -/
def restore (index : Index) : Result Index :=
  match index.postings.toList.findSome? fun (token, postings) => index.fault? token postings with
  | some fault => .error (.storage fault)
  | none => .ok index

end Index

def Posting.toJson (p : Posting) : Json := .arr [.str p.id, .int p.frequency.toNat]

def Posting.ofDraft? : Json.Draft → Option Posting
  | .arr [id, frequency] => do return ⟨← id.text?, .ofNat (← frequency.nat? 0x100000000)⟩
  | _ => none

def Index.toJson (index : Index) : Json :=
  .obj [
    ("index",
      .ofNamed (fun ps : Array Posting => .arr (ps.toList.map Posting.toJson)) index.postings),
    ("doc_freqs", .ofNamed (fun n : Nat => .int n) index.docFreqs),
    ("documents", .ofNamed .ofRecord index.documents),
    ("stats", index.stats.toJson)]

/-- Reads an index written at a place where values may still nest `depth` deep. -/
def Index.ofDraft? (depth : Nat) (d : Json.Draft) : Option Index := do
  let f ← Json.Fields.read? ["index", "doc_freqs", "documents", "stats"] d
  let postings ← f.need? 0 (·.named? (·.list? Posting.ofDraft?))
  let docFreqs ← f.need? 1 (·.named? (·.count?))
  let documents ← f.need? 2 (·.named? (·.record? (depth - 3)))
  let stats ← f.need? 3 CorpusStats.ofDraft?
  let arrays := postings.map fun _ ps => ps.toArray
  return ⟨arrays, docFreqs, documents, stats⟩

end Concordance

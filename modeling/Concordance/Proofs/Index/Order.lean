import Concordance.Proofs.Index.Contents

namespace Concordance

theorem documentOf?_perm {docs others : List Document} (hp : docs.Perm others)
    (hd : (docs.map Document.id).Nodup) (id : String) :
    documentOf? docs id = documentOf? others id := by
  have ho : (others.map Document.id).Nodup := (hp.map Document.id).nodup_iff.1 hd
  have hm : ∀ d, documentOf? docs id = some d ↔ documentOf? others id = some d := fun d => by
    rw [documentOf?_eq_some hd, documentOf?_eq_some ho, hp.mem_iff]
  cases hf : documentOf? docs id with
  | some d => exact ((hm d).1 hf).symm
  | none =>
    cases hf' : documentOf? others id with
    | none => rfl
    | some d =>
      rw [(hm d).2 hf'] at hf
      cases hf

namespace Index

/-- Indexes that answer every lookup alike. -/
structure Alike (index other : Index) : Prop where
  documents : index.documents = other.documents
  stats : index.stats = other.stats
  docFreq : ∀ token, index.docFreq token = other.docFreq token
  termFrequency : ∀ id token, index.termFrequency id token = other.termFrequency id token

section Order

variable {index other : Index} {docs others : List Document}

theorem postingsIn_perm (hp : docs.Perm others) (token : String) :
    (postingsIn docs token).Perm (postingsIn others token) :=
  (hp.filter _).map _

theorem Holds.alike (h : index.Holds docs) (ho : other.Holds others) (hp : docs.Perm others) :
    index.Alike other where
  documents := Std.ExtTreeMap.ext_getElem? fun id => by
    rw [h.documents, ho.documents, documentOf?_perm hp h.distinct]
  stats := by
    have hl : index.stats.lengths = other.stats.lengths := Std.ExtTreeMap.ext_getElem? fun id => by
      rw [h.lengths, ho.lengths, documentOf?_perm hp h.distinct]
    have ht : index.stats.total = other.stats.total := by rw [h.total, ho.total, hp.length_eq]
    show CorpusStats.mk index.stats.lengths index.stats.total = other.stats
    rw [hl, ht]
  docFreq token := by
    rw [h.docFreq, ho.docFreq, h.postingsOf, ho.postingsOf, List.size_toArray, List.size_toArray,
      (postingsIn_perm hp token).length_eq]
  termFrequency id token := by
    rw [h.termFrequency, ho.termFrequency, documentOf?_perm hp h.distinct]

end Order

end Index

end Concordance

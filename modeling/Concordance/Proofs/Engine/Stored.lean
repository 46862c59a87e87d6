import Concordance.Proofs.Analysis.Tokens
import Concordance.Proofs.Engine.Growth

namespace Concordance

namespace Engine

variable {β σ : Type} {react : React (StateM σ) β} {e : Engine β}

theorem Grown.isToken (h : e.Grown react) {id word : String} (hw : word ∈ e.tokens id) :
    IsToken word ∧ e.config.stopWords.contains word = false := by
  obtain ⟨docs, hd, hm⟩ := h.made
  rw [hd.tokens] at hw
  cases hf : documentOf? docs id with
  | none => simp [hf] at hw
  | some d =>
    obtain ⟨record, fields, ht⟩ := hm d (List.mem_of_find?_eq_some hf)
    exact Analyzer.isToken_of_mem_documentTokens ht (by simpa [hf] using hw)

section Records

variable {records : List Record} {config : Config} (h : Engine.ofRecords records config = .ok e)
include h

theorem ofRecords_metadata {id : String} (hd : e.index.hasDocument id = true) :
    ∃ record ∈ records, e.index.metadata? id = some record ∧ recordId? record = some id := by
  obtain ⟨-, docs, hh, hm⟩ := ofRecords_holds h
  obtain ⟨d, hdoc, rfl⟩ := List.mem_map.1 ((hh.holds_index.hasDocument id).1 hd)
  obtain ⟨record, hr, hd⟩ := hm d hdoc
  refine ⟨record, hr, ?_, hd.id⟩
  rw [Index.metadata?, hh.holds_index.documents,
    (documentOf?_eq_some hh.holds_index.distinct).2 ⟨hdoc, rfl⟩, Option.map_some, hd.metadata]

theorem ofRecords_tokens {id : String} {record : Record}
    (hr : e.index.metadata? id = some record) :
    e.analyzer.documentTokens record none = .ok (e.tokens id) := by
  obtain ⟨-, docs, hd, hm⟩ := ofRecords_holds h
  have hs : (documentOf? docs id).map Document.metadata = some record := by
    rw [← hd.holds_index.documents id]
    exact hr
  obtain ⟨d, hf, rfl⟩ := Option.map_eq_some_iff.1 hs
  obtain ⟨made, -, hd'⟩ := hm d (List.mem_of_find?_eq_some hf)
  rw [hd.tokens, hf, hd'.metadata]
  exact hd'.tokens

theorem ofRecords_size : e.index.documents.size ≤ records.length := by
  obtain ⟨-, docs, hd, hm⟩ := ofRecords_holds h
  have hid : ∀ d ∈ docs, recordId? d.metadata = some d.id := fun d hdoc => by
    obtain ⟨record, -, hd⟩ := hm d hdoc
    rw [hd.metadata, hd.id]
  have hn : ((docs.map Document.metadata).map recordId?).Nodup := by
    have he : (docs.map Document.metadata).map recordId? = (docs.map Document.id).map some := by
      simpa using hid
    rw [he]
    exact hd.holds_index.distinct.map (Option.some_injective _)
  have hs : docs.map Document.metadata ⊆ records := fun record hr => by
    obtain ⟨d, hdoc, rfl⟩ := List.mem_map.1 hr
    obtain ⟨made, hmade, hd⟩ := hm d hdoc
    rwa [hd.metadata]
  rw [hd.holds_index.size_documents, ← List.length_map Document.metadata]
  exact (hn.of_map.subperm hs).length_le

end Records

end Engine

end Concordance

import Concordance.Proofs.Analysis.Tokens
import Concordance.Proofs.Corpus.Notice
import Concordance.Proofs.Engine.Agreement

/-!
Isolation of additions from subscribers.  An addition is refused before anyone hears of it, or it is
complete before anyone hears of it.  What the subscribers answer makes up the outcome and nothing
else of the engine.
-/

namespace Concordance

variable {β σ : Type}

def Corpus.silent (c : Corpus β) : Corpus β := { c with signal := {} }

theorem Corpus.record_silent {c grown : Corpus β} {id : String} {tokens : List String}
    {metadata : Record} (h : c.record id tokens metadata = .ok grown) :
    c.silent.record id tokens metadata = .ok grown.silent := by
  obtain ⟨hn, rfl⟩ := record_eq_ok h
  rw [record_eq, if_neg (by exact hn)]
  rfl

namespace Engine

def silent (e : Engine β) : Engine β :=
  match e.documents with
  | .corpus c => { e with documents := .corpus c.silent }
  | .bare _ => e

theorem silent_corpus {e : Engine β} {c : Corpus β} (he : e.documents = .corpus c) :
    e.silent = { e with documents := .corpus c.silent } := by
  rw [silent, he]

section Add

variable {m : Type → Type} [Monad m] (react : React m β) {e : Engine β} {c : Corpus β}
  {id : String} {record : Record} {fields : Option (List String)} {tokens : List String}

theorem add_eq_duplicate [LawfulMonad m] (he : e.documents = .corpus c)
    (ht : e.analyzer.documentTokens record fields = .ok tokens)
    (hd : c.index.hasDocument id = true) :
    e.add react id record fields = pure (e, .error (.duplicateDocument id)) := by
  have hr : c.record id tokens record = .error (.duplicateDocument id) := by
    rw [Corpus.record_eq, if_pos hd]
  rw [add_eq_map react he ht, Corpus.add, hr, map_pure, ← he]

end Add

section State

variable (react : React (StateM σ) β) {e : Engine β} {c grown : Corpus β} {id : String}
  {record : Record} {fields : Option (List String)} {tokens : List String}

/-- A document that is taken in is kept as it would be with no subscriber, and each is told. -/
theorem add_told (he : e.documents = .corpus c)
    (ht : e.analyzer.documentTokens record fields = .ok tokens)
    (hr : c.record id tokens record = .ok grown) (s : σ) :
    let added := (e.add react id record fields).run s
    ∃ calls : List (Call β),
      ((e.add react.traced id record fields).run []).run s = ((added.1, calls), added.2) ∧
      ∃ signal : Signal β, added.1.1 = { e with documents := .corpus { grown with signal } } ∧
        (e.silent.add react id record fields).run s = ((added.1.1.silent, .ok ()), s) ∧
        Told c.signal.subscribers ⟨id, grown.index, grown.history⟩ calls added.1.2 := by
  intro added
  obtain ⟨calls, hrun, htold⟩ := Corpus.run_add_traced react hr [] s
  have hadded : added = (fun r => (({ e with documents := .corpus r.1.1 }, r.1.2), r.2))
      ((c.add react id tokens record).run s) := by
    simp only [added, add_eq_map react he ht]
    rfl
  have hgrown : ∃ signal, ((c.add react id tokens record).run s).1.1 = { grown with signal } := by
    rw [Corpus.add_eq_tell react hr]
    exact ⟨_, rfl⟩
  obtain ⟨signal, hgrown⟩ := hgrown
  have hdocs : added.1.1 = { e with documents := .corpus { grown with signal } } := by
    rw [hadded, ← hgrown]
  refine ⟨calls, ?_, signal, hdocs, ?_, ?_⟩
  · rw [add_eq_map react.traced he ht, StateT.run_map, StateT.run_map, hrun, hadded]
    rfl
  · rw [hdocs, silent_corpus he, silent_corpus rfl]
    rw [add_corpus react rfl rfl]
    simp only [ht, Corpus.record_silent hr]
    rfl
  · rw [hadded]
    exact htold

end State

/-- A record that cannot be read, and else an identifier that is taken, is refused before anyone is
called and with nothing changed. Any other record is taken in as it would be with no subscriber, and
then each of them is told once, in order, whatever the others answer. -/
theorem add_isolated (react : React (StateM σ) β) {e : Engine β} {c : Corpus β}
    (he : e.documents = .corpus c) (id : String) (record : Record)
    (fields : Option (List String)) (s : σ) :
    let names := fields.getD e.config.effectiveFields
    let added := (e.add react id record fields).run s
    ∃ calls : List (Call β),
      ((e.add react.traced id record fields).run []).run s = ((added.1, calls), added.2) ∧
      ((∃ field ∈ names, ¬ Readable record field) →
        ∃ field, FirstUnreadable record names field ∧
          added = ((e, .error (.record (.notText field))), s) ∧ calls = []) ∧
      ((∀ field ∈ names, Readable record field) →
        (c.index.hasDocument id = true →
          added = ((e, .error (.duplicateDocument id)), s) ∧ calls = []) ∧
        (c.index.hasDocument id = false → ∃ (grown : Corpus β) (tokens : List String),
          e.analyzer.documentTokens record fields = .ok tokens ∧
            added.1.1 = { e with documents := .corpus grown } ∧
            (e.silent.add react id record fields).run s = ((added.1.1.silent, .ok ()), s) ∧
            grown.Includes ⟨id, tokens, record⟩ ∧
            Told c.signal.subscribers ⟨id, grown.index, grown.history⟩ calls added.1.2)) := by
  intro names added
  cases ht : e.analyzer.documentTokens record fields with
  | error fault =>
    obtain ⟨field, hf, rfl⟩ := (e.analyzer.documentTokens_eq_error record).1 ht
    have hadded : added = ((e, .error (.record (.notText field))), s) := by
      simp only [added, add_eq_error react ht]
      rfl
    refine ⟨[], ?_, fun _ => ⟨field, hf, hadded, rfl⟩, fun hr => ?_⟩
    · rw [hadded, add_eq_error react.traced ht]
      rfl
    · obtain ⟨before, after, hs, -, hu⟩ := hf
      have hm : field ∈ names := by
        show field ∈ fields.getD e.analyzer.config.effectiveFields
        simp [hs]
      exact absurd (hr field hm) hu
  | ok tokens =>
    have hr := ((e.analyzer.documentTokens_eq_ok record).1 ht).1
    by_cases hd : c.index.hasDocument id = true
    · have hadded : added = ((e, .error (.duplicateDocument id)), s) := by
        simp only [added, add_eq_duplicate react he ht hd]
        rfl
      refine ⟨[], ?_, fun ⟨field, hf, hu⟩ => absurd (hr field hf) hu, fun _ =>
        ⟨fun _ => ⟨hadded, rfl⟩, fun hn => absurd hd (by simp [hn])⟩⟩
      rw [hadded, add_eq_duplicate react.traced he ht hd]
      rfl
    · obtain ⟨grown, hrec⟩ : ∃ grown, c.record id tokens record = .ok grown := by
        rw [Corpus.record_eq, if_neg hd]
        exact ⟨_, rfl⟩
      obtain ⟨calls, hrun, signal, hdocs, hquiet, htold⟩ := add_told react he ht hrec s
      refine ⟨calls, hrun, fun ⟨field, hf, hu⟩ => absurd (hr field hf) hu, fun _ =>
        ⟨fun hn => absurd hn hd, fun _ => ?_⟩⟩
      exact ⟨{ grown with signal }, tokens, rfl, hdocs, hquiet,
        (Corpus.includes_of_record (d := ⟨id, tokens, record⟩) hrec).signal signal, htold⟩

theorem add_isolated_disk_full :
    let react : React (StateM (List String)) (Result Unit) := fun answer change =>
      modifyGet fun seen => ((answer, answer), seen ++ [change.id])
    let c : Corpus (Result Unit) :=
      { signal := ⟨2, [(0, .error (.subscriber "disk full")), (1, .ok ())]⟩ }
    let fox : Record := .ofList [("text", .str "silver fox")] compare
    ∃ a : Analyzer, Analyzer.ofConfig {} = .ok a ∧
      let e : Engine (Result Unit) := ⟨a, .corpus c⟩
      let added := (e.add react "4" fox none).run []
      e.documents = .corpus c ∧ added.1.2 = .error (.subscriber "disk full") ∧
        added.2 = ["4", "4"] ∧
        ∃ (calls : List (Call (Result Unit))) (grown : Corpus (Result Unit)) (tokens : List String),
          ((e.add react.traced "4" fox none).run []).run [] = ((added.1, calls), added.2) ∧
            added.1.1 = { e with documents := .corpus grown } ∧
            grown.Includes ⟨"4", tokens, fox⟩ ∧
            Told c.signal.subscribers ⟨"4", grown.index, grown.history⟩ calls added.1.2 := by
  intro react c fox
  obtain ⟨a, ha, hok⟩ : ∃ a : Analyzer, Analyzer.ofConfig {} = .ok a ∧
      (a.documentTokens fox none).toOption.any (fun _ => true) = true :=
    Result.exists_of_any (by decide +kernel)
  obtain ⟨tokens, ht, -⟩ := Result.exists_of_any hok
  refine ⟨a, ha, ?_⟩
  intro e added
  obtain ⟨grown, hr⟩ : ∃ grown, c.record "4" tokens fox = .ok grown := ⟨_, rfl⟩
  have hrun : added.1.2 = .error (.subscriber "disk full") ∧ added.2 = ["4", "4"] := by
    simp only [added, add_eq_map react (e := e) rfl ht, Corpus.add_eq_tell react hr]
    exact ⟨rfl, rfl⟩
  obtain ⟨calls, htraced, -, hread⟩ := add_isolated react (e := e) rfl "4" fox none []
  obtain ⟨grown, tokens', -, hdocs, -, hin, htold⟩ :=
    (hread ((a.documentTokens_eq_ok fox).1 ht).1).2 rfl
  exact ⟨rfl, hrun.1, hrun.2, calls, grown, tokens', htraced, hdocs, hin, htold⟩

end Engine

end Concordance

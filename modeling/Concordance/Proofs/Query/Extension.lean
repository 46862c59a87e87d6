import Concordance.Proofs.Query.Grammar
import Concordance.Proofs.Query.Rendering

namespace Concordance

theorem letter_legible {c : Char} (h : c.isLower = true) :
    (isBlank c = false ∧ IsLower c) ∧ c ≠ '"' ∧ c ≠ '-' := by
  have ha : isAscii c = true := by
    have hz : c.toNat ≤ 'z'.toNat := of_decide_eq_true (Bool.and_eq_true_iff.1 h).2
    exact decide_eq_true (Nat.lt_of_le_of_lt hz (by decide))
  exact ascii_cases (P := fun c => c.isLower = true →
    (isBlank c = false ∧ IsLower c) ∧ c ≠ '"' ∧ c ≠ '-') (by decide +kernel) ha h

theorem isTerm_of_letters {word : String} (hn : word ≠ "")
    (h : ∀ c ∈ word.toList, c.isLower = true) : IsTerm word where
  nonempty := by simpa using hn
  legible := fun c hc => (letter_legible (h c hc)).1
  front := fun hf => (letter_legible (h _ (List.mem_of_head? hf))).2.1 rfl
  back := fun hb => (letter_legible (h _ (List.mem_of_getLast? hb))).2.1 rfl
  unsigned := fun hu => (letter_legible (h _ (List.mem_of_head? hu))).2.2 rfl

theorem IsTerm.isPhrase {word : String} (h : IsTerm word) : IsPhrase [word] :=
  ⟨by simp, by simpa using h.toIsQueryWord, by simp⟩

/-- Every phrase that a text opens is closed. -/
def PhrasesClosed (text : String) : Prop :=
  ∃ parts, Divides (queryWords text) parts ∧ ∀ first inner, .phrase first inner none ∉ parts

theorem phrasesClosed_iff {text : String} :
    PhrasesClosed text ↔ (QueryReader.read {} text).phrase = none := by
  constructor
  · rintro ⟨parts, hd, hc⟩
    exact (QueryReader.foldl_step_phrase hd rfl).2 hc
  · intro hp
    obtain ⟨parts, hd⟩ := exists_divides (queryWords text)
    exact ⟨parts, hd, (QueryReader.foldl_step_phrase hd rfl).1 hp⟩

instance (text : String) : Decidable (PhrasesClosed text) :=
  decidable_of_iff _ phrasesClosed_iff.symm

namespace Query

open QueryReader

variable {text word : String}

theorem parse_eq_query (h : PhrasesClosed text) : parse text = (read {} text).query :=
  finish_of_phrase_eq_none (phrasesClosed_iff.1 h)

theorem parse_or (h : PhrasesClosed text) (hw : IsTerm word) (ho : word ≠ "or") :
    parse (text ++ " OR " ++ word) = (parse text).addOptional word := by
  have hp := phrasesClosed_iff.1 h
  have ht : text ++ " OR " ++ word = text ++ " " ++ "OR" ++ " " ++ word := by
    simp [← String.toList_inj]
  show (read {} (text ++ " OR " ++ word)).finish = _
  rw [ht, read_append, read_append, read_or hp, read_term hw fun he => ho (eq_or_iff.2 he)]
  · simp [addTerm, hw.nonempty, finish, hp, addOptional, addPhrase, parse_eq_query h]
  · exact hp

theorem parse_exclude (h : PhrasesClosed text) (hw : IsExcludable word) :
    parse (text ++ " -" ++ word) = (parse text).addExcluded word := by
  have hp := phrasesClosed_iff.1 h
  have ht : text ++ " -" ++ word = text ++ " " ++ writeExcluded word := by
    simp [← String.toList_inj, writeExcluded]
  show (read {} (text ++ " -" ++ word)).finish = _
  rw [ht, read_append, read_excluded hw hp, parse_eq_query h]
  exact finish_of_phrase_eq_none hp

theorem parse_quote (h : PhrasesClosed text) {phrase : List String} (hw : IsPhrase phrase) :
    parse (text ++ " " ++ writePhrase phrase) = (parse text).addPhrase phrase := by
  have hp := phrasesClosed_iff.1 h
  show (read {} (text ++ " " ++ writePhrase phrase)).finish = _
  rw [read_append, read_phrase hw hp, parse_eq_query h]
  exact finish_of_phrase_eq_none hp

end Query

end Concordance

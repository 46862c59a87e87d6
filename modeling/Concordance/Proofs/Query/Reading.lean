import Concordance.Query.Parser

namespace Concordance

/-- Nothing is optional as long as no `or` has been read. -/
def QueryReader.Sound (r : QueryReader) : Prop :=
  r.query.hasOr = false → r.afterOr = false ∧ r.query.optional = ∅

namespace QueryReader

variable {r : QueryReader}

theorem step_of_phrase_eq_none (h : r.phrase = none) (word : List Char) :
    r.step word = r.outside word := by
  rw [step, h]

theorem finish_of_phrase_eq_none (h : r.phrase = none) : r.finish = r.query := by
  simp [finish, h, Query.addPhrase]

theorem addPhrase_optional (q : Query) (words : List String) :
    (q.addPhrase words).optional = q.optional ∧ (q.addPhrase words).hasOr = q.hasOr := by
  unfold Query.addPhrase
  split <;> exact ⟨rfl, rfl⟩

theorem Sound.phrases (h : r.Sound) (words : List String) (phrase : Option (List String)) :
    Sound ⟨r.query.addPhrase words, r.afterOr, phrase⟩ := by
  obtain ⟨ho, hh⟩ := addPhrase_optional r.query words
  intro hs
  simp only [ho, hh] at hs ⊢
  exact h hs

theorem Sound.exclude (h : r.Sound) (word : List Char) : (r.exclude word).Sound := by
  unfold QueryReader.exclude
  split <;> exact h

theorem Sound.addTerm (h : r.Sound) (word : List Char) : (r.addTerm word).Sound := by
  unfold QueryReader.addTerm
  split
  · exact h
  · dsimp only
    split
    next ha => exact fun hs => absurd ha (by simp [(h hs).1])
    next => exact h

theorem Sound.outside (h : r.Sound) (word : List Char) : (r.outside word).Sound := by
  unfold QueryReader.outside
  split
  · intro hs
    cases hs
  · split
    · unfold openPhrase
      split
      · exact h.phrases _ r.phrase
      · exact h
    · split
      · exact h.exclude _
      · exact h.addTerm _

theorem Sound.step (h : r.Sound) (word : List Char) : (r.step word).Sound := by
  unfold QueryReader.step
  split
  · unfold inside
    split
    · exact h.phrases _ none
    · exact h
  · exact h.outside word

theorem Sound.foldl (h : r.Sound) (words : List String) :
    (words.foldl (fun r word => r.step word.toList) r).Sound := by
  induction words generalizing r with
  | nil => exact h
  | cons word words ih => exact ih (h.step _)

end QueryReader

theorem Query.optional_eq_empty {text : String} (h : (Query.parse text).hasOr = false) :
    (Query.parse text).optional = ∅ := by
  have hs : QueryReader.Sound {} := fun _ => ⟨rfl, rfl⟩
  have hs := hs.foldl (queryWords text)
  unfold Query.parse QueryReader.finish at h ⊢
  generalize (queryWords text).foldl (fun (r : QueryReader) word => r.step word.toList) {} = r
    at hs h ⊢
  obtain ⟨ho, hh⟩ := QueryReader.addPhrase_optional r.query (r.phrase.getD [])
  rw [hh] at h
  rw [ho]
  exact (hs h).2

end Concordance

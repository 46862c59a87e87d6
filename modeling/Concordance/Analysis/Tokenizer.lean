import Concordance.Error
import Concordance.Json.Basic
import Concordance.Text.Lowercase
import Concordance.Text.Words

namespace Concordance

/-- How many consecutive words make a token; one word each unless set. -/
structure Tokenizer where
  ngram : Option Nat
  positive : ngram ≠ some 0
  deriving DecidableEq, Repr

def windows {α : Type} (n : Nat) : List α → List (List α)
  | [] => []
  | x :: rest =>
    let window := (x :: rest).take n
    if window.length < n then [] else window :: windows n rest

theorem mem_windows {α : Type} {n : Nat} (pos : 0 < n) {xs window : List α} :
    window ∈ windows n xs ↔ window.length = n ∧ window <:+: xs := by
  induction xs with
  | nil =>
    simp only [windows, List.not_mem_nil, List.infix_nil, false_iff, not_and]
    rintro length rfl
    simp at length
    omega
  | cons x rest ih =>
    rw [windows, List.infix_cons_iff]
    split
    case isTrue short =>
      simp only [List.not_mem_nil, false_iff, not_and]
      intro length inside
      have bound : window.length ≤ (x :: rest).length :=
        (List.infix_cons_iff.2 inside).length_le
      simp at short bound
      omega
    case isFalse long =>
      have full : ((x :: rest).take n).length = n := by
        have := List.length_take_le n (x :: rest)
        omega
      rw [List.mem_cons, ih]
      constructor
      · rintro (rfl | ⟨length, inside⟩)
        · exact ⟨full, .inl (List.take_prefix ..)⟩
        · exact ⟨length, .inr inside⟩
      · rintro ⟨length, front | inside⟩
        · left
          rw [List.prefix_iff_eq_take.1 front, length]
        · exact .inr ⟨length, inside⟩

namespace Tokenizer

def ofNgram (ngram : Option Nat) : Result Tokenizer :=
  if h : ngram = some 0 then .error (.config .ngramZero) else .ok ⟨ngram, h⟩

/-- The words of a text: maximal runs of word characters of its lowercase. -/
def unigrams (text : String) : List String :=
  (runs isWord (lowercase text).toList).map String.ofList

def width (t : Tokenizer) : Nat := t.ngram.getD 1

def tokenize (t : Tokenizer) (text : String) : List String :=
  if t.width ≤ 1 then unigrams text
  else (windows t.width (unigrams text)).map ("_".intercalate ·)

/-- The texts of a record: of the given fields in the given order, or of all. -/
def recordTexts (record : Record) (fields : Option (List String)) : List String :=
  match fields with
  | some fields => fields.filterMap fun field => record[field]?.bind Json.str?
  | none => record.toList.filterMap fun (_, value) => value.str?

def tokenizeRecord (t : Tokenizer) (record : Record) (fields : Option (List String)) :
    List String :=
  t.tokenize (" ".intercalate (recordTexts record fields))

theorem width_pos (t : Tokenizer) : 0 < t.width := by
  unfold width
  cases h : t.ngram with
  | none => simp
  | some n =>
    have := t.positive
    rw [h] at this
    simp at this ⊢
    omega

end Tokenizer

end Concordance

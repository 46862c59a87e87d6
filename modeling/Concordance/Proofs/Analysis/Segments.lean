import Concordance.Proofs.Analysis.Fields

/-!
How a text divides into its words.  A lowercased text is words and gaps in turn, in one way only, and its
tokens are these words or the windows of consecutive ones.  Words joined by spaces are cut at the same
places again.
-/

namespace Concordance

/-- A text as words and gaps in turn: a gap in front, then each word with the gap behind it.  Words are
rows of characters of the class `p`, gaps have none of it, and only the gaps at the two ends may be
empty. -/
structure Segments (p : Char → Bool) (front : List Char) (pairs : List (List Char × List Char))
    (cs : List Char) : Prop where
  joined : cs = front ++ pairs.flatMap fun pair => pair.1 ++ pair.2
  words : ∀ pair ∈ pairs, pair.1 ≠ [] ∧ ∀ c ∈ pair.1, p c = true
  gaps : (∀ c ∈ front, p c = false) ∧ ∀ pair ∈ pairs, ∀ c ∈ pair.2, p c = false
  apart : ∀ pair ∈ pairs.dropLast, pair.2 ≠ []

section Runs

variable {p : Char → Bool} {c : Char} {cs front gap word : List Char}
  {pair : List Char × List Char} {pairs : List (List Char × List Char)}

theorem runs_append_of_neg (h : ∀ c ∈ gap, p c = false) (cs : List Char) :
    runs p (gap ++ cs) = runs p cs := by
  induction gap with
  | nil => rfl
  | cons c gap ih =>
    obtain ⟨hc, hg⟩ := List.forall_mem_cons.1 h
    rw [← ih hg]
    exact runs_append hc [] _

theorem runs_word_append (hw : word ≠ [] ∧ ∀ c ∈ word, p c = true) (hg : ∀ c ∈ gap, p c = false)
    (hn : gap = [] → cs = []) : runs p (word ++ gap ++ cs) = word :: runs p cs := by
  cases gap with
  | nil =>
    rw [hn rfl, List.append_nil, List.append_nil, runs_eq_singleton hw.1 hw.2]
    rfl
  | cons c gap =>
    obtain ⟨hc, hg⟩ := List.forall_mem_cons.1 hg
    rw [List.append_assoc, List.cons_append, runs_append hc, runs_eq_singleton hw.1 hw.2,
      runs_append_of_neg hg]
    rfl

namespace Segments

theorem tail (h : Segments p front (pair :: pairs) cs) :
    Segments p [] pairs (pairs.flatMap fun pair => pair.1 ++ pair.2) where
  joined := rfl
  words := (List.forall_mem_cons.1 h.words).2
  gaps := ⟨by simp, (List.forall_mem_cons.1 h.gaps.2).2⟩
  apart other ho := by
    cases pairs with
    | nil => cases ho
    | cons next rest => exact h.apart other (List.mem_cons_of_mem _ ho)

theorem runs_eq (h : Segments p front pairs cs) : runs p cs = pairs.map Prod.fst := by
  induction pairs generalizing front cs with
  | nil =>
    rw [h.joined, runs_append_of_neg h.gaps.1]
    rfl
  | cons pair pairs ih =>
    have hn : pair.2 = [] → pairs.flatMap (fun pair => pair.1 ++ pair.2) = [] := by
      intro he
      cases pairs with
      | nil => rfl
      | cons next rest => exact absurd he (h.apart pair (List.mem_cons_self ..))
    rw [h.joined, runs_append_of_neg h.gaps.1, List.flatMap_cons,
      runs_word_append (h.words pair (by simp)) (h.gaps.2 pair (by simp)) hn, ih h.tail]
    rfl

theorem widen_gap (h : Segments p front pairs cs) (hc : p c = false) :
    Segments p (c :: front) pairs (c :: cs) where
  joined := by rw [h.joined]; rfl
  words := h.words
  gaps := ⟨List.forall_mem_cons.2 ⟨hc, h.gaps.1⟩, h.gaps.2⟩
  apart := h.apart

theorem widen_word (h : Segments p [] (pair :: pairs) cs) (hc : p c = true) :
    Segments p [] ((c :: pair.1, pair.2) :: pairs) (c :: cs) where
  joined := by rw [h.joined]; rfl
  words := by
    obtain ⟨⟨-, hw⟩, hr⟩ := List.forall_mem_cons.1 h.words
    exact List.forall_mem_cons.2 ⟨⟨by simp, List.forall_mem_cons.2 ⟨hc, hw⟩⟩, hr⟩
  gaps := ⟨by simp, List.forall_mem_cons.2 (List.forall_mem_cons.1 h.gaps.2)⟩
  apart other ho := by
    cases pairs with
    | nil => cases ho
    | cons next rest =>
      rcases List.mem_cons.1 ho with rfl | ho
      · exact h.apart pair (List.mem_cons_self ..)
      · exact h.apart other (List.mem_cons_of_mem _ ho)

theorem new_word (h : Segments p front pairs cs) (hc : p c = true) (hn : front = [] → pairs = []) :
    Segments p [] (([c], front) :: pairs) (c :: cs) where
  joined := by rw [h.joined]; rfl
  words := List.forall_mem_cons.2 ⟨by simpa using hc, h.words⟩
  gaps := ⟨by simp, List.forall_mem_cons.2 h.gaps⟩
  apart other ho := by
    cases pairs with
    | nil => cases ho
    | cons next rest =>
      rcases List.mem_cons.1 ho with rfl | ho
      · exact fun he => by cases hn he
      · exact h.apart other ho

end Segments

theorem exists_segments (p : Char → Bool) (cs : List Char) :
    ∃ front pairs, Segments p front pairs cs := by
  induction cs with
  | nil => exact ⟨[], [], rfl, by simp, by simp, by simp⟩
  | cons c cs ih =>
    obtain ⟨front, pairs, h⟩ := ih
    by_cases hc : p c = true
    · match front, pairs with
      | [], pair :: pairs => exact ⟨_, _, h.widen_word hc⟩
      | [], [] => exact ⟨_, _, h.new_word hc fun _ => rfl⟩
      | d :: front, pairs => exact ⟨_, _, h.new_word hc nofun⟩
    · exact ⟨_, _, h.widen_gap (by simpa using hc)⟩

theorem runs_eq_iff {words : List (List Char)} :
    runs p cs = words ↔ ∃ front pairs, Segments p front pairs cs ∧ words = pairs.map Prod.fst := by
  constructor
  · rintro rfl
    obtain ⟨front, pairs, h⟩ := exists_segments p cs
    exact ⟨front, pairs, h, h.runs_eq⟩
  · rintro ⟨front, pairs, h, rfl⟩
    exact h.runs_eq

end Runs

theorem windows_eq_map_range {α : Type} {n : Nat} (hn : 0 < n) (items : List α) :
    windows n items =
      (List.range (items.length + 1 - n)).map fun i => (items.drop i).take n := by
  induction items with
  | nil =>
    rw [List.length_nil, Nat.sub_eq_zero_of_le (by omega)]
    rfl
  | cons item items ih =>
    rw [windows, List.length_take, List.length_cons]
    split
    next hs => rw [Nat.sub_eq_zero_of_le (by omega), List.range_zero, List.map_nil]
    next hl =>
      have hk : items.length + 1 + 1 - n = items.length + 1 - n + 1 := by omega
      rw [ih, hk, List.range_succ_eq_map, List.map_cons, List.map_map]
      rfl

namespace Tokenizer

variable {t : Tokenizer} {n : Nat} {text : String}

theorem unigrams_eq_iff {words : List String} : unigrams text = words ↔
    ∃ front pairs, Segments isWord front pairs (lowercase text).toList ∧
      words.map String.toList = pairs.map Prod.fst := by
  have hinj : Function.Injective (List.map String.toList) :=
    List.map_injective_iff.2 fun _ _ => String.toList_injective
  have hlist : (unigrams text).map String.toList = runs isWord (lowercase text).toList := by
    simp [unigrams]
  rw [← hinj.eq_iff, hlist, runs_eq_iff]

theorem unigrams_of_isToken {word : String} (h : IsToken word) : unigrams word = [word] := by
  have hl : lowercase word = word := lowercase_eq_self fun c hc => (h.chars c hc).2
  have hn : (lowercase word).toList ≠ [] := hl.symm ▸ h.nonempty
  have hs := unigrams_eq_singleton hn fun c hc => (h.chars c (hl ▸ hc)).1
  rwa [hl] at hs

theorem unigrams_intercalate_of_isToken {words : List String} (h : ∀ word ∈ words, IsToken word) :
    unigrams (" ".intercalate words) = words := by
  rw [unigrams_intercalate]
  induction words with
  | nil => rfl
  | cons word words ih =>
    obtain ⟨hw, hr⟩ := List.forall_mem_cons.1 h
    rw [List.flatMap_cons, unigrams_of_isToken hw, ih hr]
    rfl

theorem tokenize_windows (hn : 1 < n) (h : t.ngram = some n) (text : String) :
    t.tokenize text = (List.range ((unigrams text).length + 1 - n)).map fun i =>
      "_".intercalate (((unigrams text).drop i).take n) := by
  have hw : t.width = n := by simp [width, h]
  rw [tokenize, if_neg (by omega), hw, windows_eq_map_range (by omega), List.map_map]
  rfl

/-- The tokens of a text are the words of the one division of its lowercase into words and gaps.  Wider
tokens are the windows of these words, and joined by spaces the words are the tokens again. -/
theorem tokenize_divides {wide : Tokenizer} (ht : t.ngram = none ∨ t.ngram = some 1) (hn : 1 < n)
    (hw : wide.ngram = some n) (text : String) :
    let words := t.tokenize text
    (∀ tokens : List String, words = tokens ↔ ∃ front pairs,
        Segments isWord front pairs (lowercase text).toList ∧
          tokens.map String.toList = pairs.map Prod.fst) ∧
      ((wide.tokenize text).length : Int) = max 0 ((words.length : Int) - n + 1) ∧
      (∀ i < (wide.tokenize text).length,
        (wide.tokenize text)[i]? = some ("_".intercalate ((words.drop i).take n))) ∧
      t.tokenize (" ".intercalate words) = words := by
  simp only [tokenize_single ht, tokenize_windows hn hw, List.length_map, List.length_range]
  refine ⟨fun tokens => unigrams_eq_iff, by omega, fun i hi => ?_, ?_⟩
  · rw [List.getElem?_map, List.getElem?_range hi]
    rfl
  · exact unigrams_intercalate_of_isToken fun word hm => isToken_of_mem_unigrams hm

theorem tokenize_divides_istanbul :
    let t : Tokenizer := ⟨none, by decide⟩
    let wide : Tokenizer := ⟨some 2, by decide⟩
    let text := "¿ΟΔΟΣ—42, İ"
    let words := t.tokenize text
    (t.ngram = none ∨ t.ngram = some 1) ∧ 1 < 2 ∧ wide.ngram = some 2 ∧
      words = ["οδος", "42", "i̇"] ∧ wide.tokenize text = ["οδος_42", "42_i̇"] ∧
      (∀ tokens : List String, words = tokens ↔ ∃ front pairs,
        Segments isWord front pairs (lowercase text).toList ∧
          tokens.map String.toList = pairs.map Prod.fst) ∧
      ((wide.tokenize text).length : Int) = max 0 ((words.length : Int) - (2 : Nat) + 1) ∧
      (∀ i < (wide.tokenize text).length,
        (wide.tokenize text)[i]? = some ("_".intercalate ((words.drop i).take 2))) ∧
      t.tokenize (" ".intercalate words) = words := by
  intro t wide text words
  exact ⟨.inl rfl, by decide, rfl, by decide +kernel, by decide +kernel,
    tokenize_divides (.inl rfl) (by decide) rfl text⟩

end Tokenizer

end Concordance

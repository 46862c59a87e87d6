import Concordance.Proofs.Query.Reading
import Concordance.Proofs.Text.Lowercase
import Concordance.Proofs.Text.Words

/-!
The words of the queries that can be read.  They are lowercase and without blanks, and where the
reader looks for quotes and a minus sign none is left: at both ends of single words, and behind the
words that leave a phrase open.
-/

namespace Concordance

def Legible (cs : List Char) : Prop := ∀ c ∈ cs, isBlank c = false ∧ IsLower c

instance (cs : List Char) : Decidable (Legible cs) :=
  List.decidableBAll (fun c => isBlank c = false ∧ IsLower c) cs

theorem Legible.part {cs ds : List Char} (h : Legible ds) (hi : cs <:+: ds) : Legible cs :=
  fun c hc => h c (hi.subset hc)

structure IsQueryWord (word : String) : Prop where
  nonempty : word.toList ≠ []
  legible : Legible word.toList

/-- A word that can be excluded: quotes at its ends would be trimmed. -/
structure IsExcludable (word : String) : Prop extends IsQueryWord word where
  front : word.toList.head? ≠ some '"'
  back : word.toList.getLast? ≠ some '"'

/-- A word that can be required or optional: behind a minus sign it would be excluded. -/
structure IsTerm (word : String) : Prop extends IsExcludable word where
  unsigned : word.toList.head? ≠ some '-'

/-- A phrase: only its last word may end with a quote of its own. -/
structure IsPhrase (phrase : List String) : Prop where
  nonempty : phrase ≠ []
  words : ∀ word ∈ phrase, IsQueryWord word
  inner : ∀ word ∈ phrase.dropLast, word.toList.getLast? ≠ some '"'

instance (word : String) : Decidable (IsQueryWord word) :=
  decidable_of_iff (word.toList ≠ [] ∧ Legible word.toList)
    ⟨fun ⟨hn, hl⟩ => ⟨hn, hl⟩, fun h => ⟨h.nonempty, h.legible⟩⟩

instance (word : String) : Decidable (IsExcludable word) :=
  decidable_of_iff
    (IsQueryWord word ∧ word.toList.head? ≠ some '"' ∧ word.toList.getLast? ≠ some '"')
    ⟨fun ⟨hw, hf, hb⟩ => ⟨hw, hf, hb⟩, fun h => ⟨h.toIsQueryWord, h.front, h.back⟩⟩

instance (word : String) : Decidable (IsTerm word) :=
  decidable_of_iff (IsExcludable word ∧ word.toList.head? ≠ some '-')
    ⟨fun ⟨he, hu⟩ => ⟨he, hu⟩, fun h => ⟨h.toIsExcludable, h.unsigned⟩⟩

instance (phrase : List String) : Decidable (IsPhrase phrase) :=
  decidable_of_iff (phrase ≠ [] ∧ (∀ word ∈ phrase, IsQueryWord word) ∧
      ∀ word ∈ phrase.dropLast, word.toList.getLast? ≠ some '"')
    ⟨fun ⟨hn, hw, hi⟩ => ⟨hn, hw, hi⟩, fun h => ⟨h.nonempty, h.words, h.inner⟩⟩

namespace Query

structure Worded (q : Query) : Prop where
  required : ∀ word ∈ q.required, IsTerm word
  optional : ∀ word ∈ q.optional, IsTerm word
  excluded : ∀ word ∈ q.excluded, IsExcludable word
  phrases : ∀ words ∈ q.phrases, IsPhrase words

/-- Queries that can be read: with an optional word there is an `or`. -/
structure Expressible (q : Query) : Prop extends Worded q where
  hasOr : q.optional ≠ ∅ → q.hasOr = true

instance (q : Query) : Decidable q.Expressible :=
  decidable_of_iff ((∀ word ∈ q.required.toList, IsTerm word) ∧
      (∀ word ∈ q.optional.toList, IsTerm word) ∧
      (∀ word ∈ q.excluded.toList, IsExcludable word) ∧ (∀ phrase ∈ q.phrases, IsPhrase phrase) ∧
      (q.optional.isEmpty = false → q.hasOr = true))
    ⟨fun ⟨hr, ho, he, hp, hh⟩ =>
        ⟨⟨by simpa using hr, by simpa using ho, by simpa using he, hp⟩, by simpa using hh⟩,
      fun h => ⟨by simpa using h.required, by simpa using h.optional, by simpa using h.excluded,
        h.phrases, by simpa using h.hasOr⟩⟩

theorem Worded.addPhrase {q : Query} (h : q.Worded) {words : List String}
    (hw : words ≠ [] → IsPhrase words) : (q.addPhrase words).Worded := by
  unfold Query.addPhrase
  split
  · exact h
  next hn =>
    refine { h with phrases := fun other ho => ?_ }
    rcases List.mem_append.1 ho with ho | ho
    · exact h.phrases other ho
    · rw [List.mem_singleton.1 ho]
      exact hw (by simpa using hn)

end Query

section Strip

variable {c : Char} {cs ds : List Char}

theorem stripFront?_eq_some : stripFront? c cs = some ds ↔ cs = c :: ds := by
  cases cs with
  | nil => simp [stripFront?]
  | cons d rest => simp [stripFront?]

theorem stripFront?_eq_none : stripFront? c cs = none ↔ cs.head? ≠ some c := by
  cases cs with
  | nil => simp [stripFront?]
  | cons d rest => simp [stripFront?]

theorem stripBack?_eq_some : stripBack? c cs = some ds ↔ cs = ds ++ [c] := by
  rw [stripBack?, Option.map_eq_some_iff]
  simp only [stripFront?_eq_some]
  constructor
  · rintro ⟨rest, hr, rfl⟩
    rw [← List.reverse_reverse cs, hr, List.reverse_cons]
  · rintro rfl
    exact ⟨ds.reverse, by simp, ds.reverse_reverse⟩

theorem stripBack?_eq_none : stripBack? c cs = none ↔ cs.getLast? ≠ some c := by
  rw [stripBack?, Option.map_eq_none_iff, stripFront?_eq_none, List.head?_reverse]

theorem Legible.stripFront? (h : Legible cs) (hs : stripFront? c cs = some ds) : Legible ds :=
  h.part ⟨[c], [], by simp [stripFront?_eq_some.1 hs]⟩

theorem Legible.stripBack? (h : Legible cs) (hs : stripBack? c cs = some ds) : Legible ds :=
  h.part ⟨[], [c], by simp [stripBack?_eq_some.1 hs]⟩

theorem isQuote_eq_false {c : Char} : isQuote c = false ↔ c ≠ '"' := by
  simp [isQuote]

theorem trimBoth_isQuote_eq_self (hf : cs.head? ≠ some '"') (hb : cs.getLast? ≠ some '"') :
    trimBoth isQuote cs = cs :=
  trimBoth_eq_self (fun c hc => isQuote_eq_false.2 fun he => hf (by rw [hc, he]))
    fun c hc => isQuote_eq_false.2 fun he => hb (by rw [hc, he])

end Strip

/-- Outside phrases a word that is no `or` and begins with neither sign is a term. -/
theorem QueryReader.outside_eq_addTerm {word : List Char} (ho : word ≠ ['o', 'r'])
    (hq : word.head? ≠ some '"') (hm : word.head? ≠ some '-') (r : QueryReader) :
    r.outside word = r.addTerm (trimBoth isQuote word) := by
  simp [QueryReader.outside, ho, stripFront?_eq_none.2 hq, stripFront?_eq_none.2 hm]

theorem forall_mem_insert {P : String → Prop} {words : WordSet} {word : String}
    (hs : ∀ other ∈ words, P other) (hw : P word) : ∀ other ∈ words.insert word, P other := by
  intro other ho
  rcases Std.ExtTreeSet.mem_insert.1 ho with he | ho
  · rwa [← Std.LawfulEqCmp.eq_of_compare he]
  · exact hs other ho

namespace QueryReader

def Open (words : List String) : Prop :=
  ∀ word ∈ words, IsQueryWord word ∧ word.toList.getLast? ≠ some '"'

theorem Open.isPhrase {words : List String} (h : Open words) (hn : words ≠ []) : IsPhrase words :=
  ⟨hn, fun word hw => (h word hw).1, fun word hw => (h word (List.dropLast_subset words hw)).2⟩

theorem isQueryWord_ofList {word : List Char} (hn : word ≠ []) (hw : Legible word) :
    IsQueryWord (String.ofList word) :=
  ⟨by simpa using hn, by simpa using hw⟩

theorem Open.isPhrase_push {words : List String} (h : Open words) {word : List Char}
    (hw : Legible word) (hn : pushWord words word ≠ []) : IsPhrase (pushWord words word) := by
  unfold pushWord at hn ⊢
  split at hn
  next he =>
    rw [if_pos he]
    exact h.isPhrase hn
  next he =>
    rw [if_neg he]
    refine ⟨hn, fun other ho => ?_, fun other ho => (h other (by simpa using ho)).2⟩
    rcases List.mem_append.1 ho with ho | ho
    · exact (h other ho).1
    · rw [List.mem_singleton.1 ho]
      exact isQueryWord_ofList (by simpa using he) hw

theorem Open.push {words : List String} (h : Open words) {word : List Char} (hw : Legible word)
    (hq : word.getLast? ≠ some '"') : Open (pushWord words word) := by
  unfold pushWord
  split
  · exact h
  next he =>
    intro other ho
    rcases List.mem_append.1 ho with ho | ho
    · exact h other ho
    · rw [List.mem_singleton.1 ho]
      exact ⟨isQueryWord_ofList (by simpa using he) hw, by simpa using hq⟩

theorem open_nil : Open [] := fun _ hw => absurd hw List.not_mem_nil

/-- What reading keeps: the words read are those of a query, and so are those of an open phrase. -/
structure Worded (r : QueryReader) : Prop where
  query : r.query.Worded
  phrase : ∀ words, r.phrase = some words → Open words

variable {r : QueryReader} {word : List Char}

theorem isExcludable_trimBoth (hw : Legible word) (hn : trimBoth isQuote word ≠ []) :
    IsExcludable (String.ofList (trimBoth isQuote word)) := by
  refine ⟨isQueryWord_ofList hn (hw.part (trimBoth_isInfix isQuote word)), ?_, ?_⟩
  · rw [String.toList_ofList]
    exact fun hq => isQuote_eq_false.1 (head?_trimBoth hq) rfl
  · rw [String.toList_ofList]
    exact fun hq => isQuote_eq_false.1 (getLast?_trimBoth hq) rfl

theorem isTerm_trimBoth (hw : Legible word) (hq : word.head? ≠ some '"')
    (hm : word.head? ≠ some '-') (hn : trimBoth isQuote word ≠ []) :
    IsTerm (String.ofList (trimBoth isQuote word)) := by
  refine ⟨isExcludable_trimBoth hw hn, ?_⟩
  obtain ⟨rest, hr⟩ : trimBoth isQuote word <+: word :=
    trimBoth_isPrefix fun c hc => isQuote_eq_false.2 fun he => hq (by rw [hc, he])
  rw [String.toList_ofList]
  intro hs
  rw [← hr, List.head?_append, hs] at hm
  exact hm rfl

theorem Worded.exclude (h : r.Worded) (hw : word ≠ [] → IsExcludable (String.ofList word)) :
    (r.exclude word).Worded := by
  unfold QueryReader.exclude
  split
  · exact h
  next hn =>
    have hw := hw (by simpa using hn)
    exact { h with query := { h.query with excluded := forall_mem_insert h.query.excluded hw } }

theorem Worded.addTerm (h : r.Worded) (hw : word ≠ [] → IsTerm (String.ofList word)) :
    (r.addTerm word).Worded := by
  unfold QueryReader.addTerm
  split
  · exact h
  next hn =>
    have hw := hw (by simpa using hn)
    dsimp only
    split
    · exact { h with query := { h.query with optional := forall_mem_insert h.query.optional hw } }
    · exact { h with query := { h.query with required := forall_mem_insert h.query.required hw } }

theorem Worded.inside (h : r.Worded) (hw : Legible word) {words : List String} (ho : Open words) :
    (r.inside words word).Worded := by
  unfold QueryReader.inside
  split
  next last hs =>
    exact ⟨h.query.addPhrase (ho.isPhrase_push (hw.stripBack? hs)), nofun⟩
  next hs =>
    refine ⟨h.query, fun words hp => ?_⟩
    cases hp
    exact ho.push hw (stripBack?_eq_none.1 hs)

theorem Worded.openPhrase (h : r.Worded) (hw : Legible word) : (r.openPhrase word).Worded := by
  unfold QueryReader.openPhrase
  split
  next single hs =>
    exact { h with query := h.query.addPhrase (open_nil.isPhrase_push (hw.stripBack? hs)) }
  next hs =>
    refine ⟨h.query, fun words hp => ?_⟩
    cases hp
    exact open_nil.push hw (stripBack?_eq_none.1 hs)

theorem Worded.outside (h : r.Worded) (hw : Legible word) : (r.outside word).Worded := by
  unfold QueryReader.outside
  split
  · exact { h with query := { h.query with } }
  · split
    next rest hs => exact h.openPhrase (hw.stripFront? hs)
    next hq =>
      split
      next rest hs => exact h.exclude (isExcludable_trimBoth (hw.stripFront? hs))
      next hm =>
        exact h.addTerm (isTerm_trimBoth hw (stripFront?_eq_none.1 hq) (stripFront?_eq_none.1 hm))

theorem Worded.step (h : r.Worded) (hw : Legible word) : (r.step word).Worded := by
  unfold QueryReader.step
  split
  next words hp => exact h.inside hw (h.phrase words hp)
  next => exact h.outside hw

theorem Worded.foldl (h : r.Worded) {words : List String}
    (hw : ∀ word ∈ words, Legible word.toList) :
    (words.foldl (fun r word => r.step word.toList) r).Worded := by
  induction words generalizing r with
  | nil => exact h
  | cons word words ih =>
    exact ih (h.step (hw word (by simp))) fun other ho => hw other (by simp [ho])

theorem Worded.finish (h : r.Worded) : r.finish.Worded := by
  refine h.query.addPhrase fun hn => ?_
  cases hp : r.phrase with
  | none => exact absurd (by rw [hp]; rfl) hn
  | some words =>
    rw [hp] at hn
    exact (h.phrase words hp).isPhrase hn

end QueryReader

theorem legible_of_mem_queryWords {text word : String} (h : word ∈ queryWords text) :
    Legible word.toList := by
  obtain ⟨raw, hr, rfl⟩ := List.mem_map.1 h
  obtain ⟨run, hm, rfl⟩ := List.mem_map.1 hr
  have hb : ∀ c ∈ run, isBlank c = false := by simpa using (mem_class_of_mem_runs hm).2
  intro c hc
  rw [lowercase, String.toList_ofList, String.toList_ofList] at hc
  obtain ⟨hl, hs⟩ := mem_lowerFrom hc
  exact ⟨hs hb, hl⟩

theorem Query.expressible_parse (text : String) : (Query.parse text).Expressible := by
  have h : QueryReader.Worded {} :=
    ⟨⟨by simp, by simp, by simp, by simp⟩, nofun⟩
  refine ⟨(h.foldl fun word hw => legible_of_mem_queryWords hw).finish, fun ho => ?_⟩
  cases hr : (Query.parse text).hasOr with
  | true => rfl
  | false => exact absurd (Query.optional_eq_empty hr) ho

end Concordance

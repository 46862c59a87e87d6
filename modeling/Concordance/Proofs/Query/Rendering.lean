import Concordance.Proofs.Query.Wording

/-!
Writing queries.  A quote behind a required or optional word keeps it from being read as `or`, and is
trimmed.  What is written so is read back: the queries that can be read are the expressible ones.
-/

namespace Concordance

namespace Query

def writeTerm (word : String) : String := word ++ "\""

def writeOptional (word : String) : String := "OR " ++ writeTerm word

def writeExcluded (word : String) : String := "-" ++ word

def writePhrase (phrase : List String) : String := "\"" ++ " ".intercalate phrase ++ "\""

/-- The parts of a written query.  An `or` that has no word stands at the end. -/
def parts (q : Query) : List String :=
  q.required.toList.map writeTerm ++ q.optional.toList.map writeOptional ++
    q.excluded.toList.map writeExcluded ++ q.phrases.map writePhrase ++
    if q.hasOr && q.optional.isEmpty then ["OR"] else []

def render (q : Query) : String := " ".intercalate q.parts

def addRequired (q : Query) (word : String) : Query := { q with required := q.required.insert word }

def addOptional (q : Query) (word : String) : Query :=
  { q with optional := q.optional.insert word, hasOr := true }

def addExcluded (q : Query) (word : String) : Query := { q with excluded := q.excluded.insert word }

theorem foldl_insert (set : WordSet → Query) {add : Query → String → Query}
    (h : ∀ s word, add (set s) word = set (s.insert word)) (s : WordSet) (words : List String) :
    words.foldl add (set s) = set (s.insertMany words) := by
  rw [Std.ExtTreeSet.insertMany_list_eq_foldl]
  exact List.foldl_hom set h

theorem foldl_addRequired (q : Query) (words : List String) :
    words.foldl addRequired q = { q with required := q.required.insertMany words } :=
  foldl_insert (fun s => { q with required := s }) (fun _ _ => rfl) q.required words

theorem foldl_addExcluded (q : Query) (words : List String) :
    words.foldl addExcluded q = { q with excluded := q.excluded.insertMany words } :=
  foldl_insert (fun s => { q with excluded := s }) (fun _ _ => rfl) q.excluded words

theorem foldl_addOptional (q : Query) (words : List String) :
    words.foldl addOptional q =
      { q with optional := q.optional.insertMany words, hasOr := q.hasOr || !words.isEmpty } := by
  induction words generalizing q with
  | nil => simp
  | cons word words ih => simp [ih, addOptional, Std.ExtTreeSet.insertMany_cons]

theorem addPhrase_of_ne_nil {phrase : List String} (hn : phrase ≠ []) (q : Query) :
    q.addPhrase phrase = { q with phrases := q.phrases ++ [phrase] } := by
  simp [addPhrase, hn]

theorem foldl_addPhrase (q : Query) {phrases : List (List String)}
    (h : ∀ phrase ∈ phrases, phrase ≠ []) :
    phrases.foldl addPhrase q = { q with phrases := q.phrases ++ phrases } := by
  induction phrases generalizing q with
  | nil => simp
  | cons phrase phrases ih =>
    rw [List.foldl_cons, ih _ fun other ho => h other (by simp [ho]),
      addPhrase_of_ne_nil (h phrase (by simp))]
    simp

end Query

theorem insertMany_toList (words : WordSet) : (∅ : WordSet).insertMany words.toList = words :=
  Std.ExtTreeSet.ext_mem fun word => by simp

theorem legible_quote : Legible ['"'] := by decide +kernel

theorem Legible.append {cs ds : List Char} (hc : Legible cs) (hd : Legible ds) :
    Legible (cs ++ ds) :=
  fun c h => (List.mem_append.1 h).elim (hc c) (hd c)

theorem IsExcludable.trimBoth_eq_self {word : String} (h : IsExcludable word) :
    trimBoth isQuote word.toList = word.toList :=
  trimBoth_isQuote_eq_self h.front h.back

theorem IsPhrase.tail {word next : String} {rest : List String}
    (h : IsPhrase (word :: next :: rest)) : IsPhrase (next :: rest) :=
  ⟨by simp, fun other ho => h.words other (by simp [ho]),
    fun other ho => h.inner other (by simp [ho])⟩

namespace QueryReader

variable {r : QueryReader} {q : Query} {word : String}

def read (r : QueryReader) (text : String) : QueryReader :=
  (queryWords text).foldl (fun r word => r.step word.toList) r

theorem read_append (r : QueryReader) (s t : String) :
    r.read (s ++ " " ++ t) = (r.read s).read t := by
  simp [read, queryWords, blankWords_append]

theorem read_intercalate (r : QueryReader) (texts : List String) :
    r.read (" ".intercalate texts) = texts.foldl read r := by
  induction texts generalizing r with
  | nil => rfl
  | cons text texts ih =>
    cases texts with
    | nil => simp
    | cons next rest =>
      rw [String.intercalate_cons_cons, read_append, ih]
      rfl

theorem read_legible {text : String} {cs : List Char} (ht : text.toList = cs) (hn : cs ≠ [])
    (h : Legible cs) : r.read text = r.step cs := by
  subst ht
  rw [read, queryWords, blankWords_eq_singleton hn fun c hc => (h c hc).1]
  simp [lowercase_eq_self fun c hc => (h c hc).2]

theorem outside_quote (r : QueryReader) (rest : List Char) :
    r.outside ('"' :: rest) = r.openPhrase rest := by
  simp [outside, stripFront?]

theorem outside_minus (r : QueryReader) (rest : List Char) :
    r.outside ('-' :: rest) = r.exclude (trimBoth isQuote rest) := by
  simp [outside, stripFront?]

theorem pushWord_toList (h : IsQueryWord word) (words : List String) :
    pushWord words word.toList = words ++ [word] := by
  simp [pushWord, h.nonempty]

theorem read_term (h : IsTerm word) (ho : word.toList ≠ ['o', 'r']) (hp : r.phrase = none) :
    r.read word = r.addTerm word.toList := by
  rw [read_legible rfl h.nonempty h.legible, step_of_phrase_eq_none hp,
    outside_eq_addTerm ho h.front h.unsigned, h.trimBoth_eq_self]

/-- The quote behind the word keeps it from being an `or`, and is trimmed. -/
theorem read_writeTerm (h : IsTerm word) (hp : r.phrase = none) :
    r.read (Query.writeTerm word) = r.addTerm word.toList := by
  have ht : (Query.writeTerm word).toList = word.toList ++ ['"'] := by simp [Query.writeTerm]
  have ho : word.toList ++ ['"'] ≠ ['o', 'r'] := fun he => by simpa using congrArg List.getLast? he
  have hh : (word.toList ++ ['"']).head? = word.toList.head? := by
    obtain ⟨c, cs, hc⟩ := List.exists_cons_of_ne_nil h.nonempty
    simp [hc]
  have hb : trimBoth isQuote (word.toList ++ ['"']) = word.toList :=
    (trimBoth_concat (show isQuote '"' = true from rfl) _).trans h.trimBoth_eq_self
  rw [read_legible ht (by simp) (h.legible.append legible_quote), step_of_phrase_eq_none hp,
    outside_eq_addTerm ho (by rw [hh]; exact h.front) (by rw [hh]; exact h.unsigned), hb]

def idle (q : Query) : QueryReader := { query := q }

theorem read_or (hp : r.phrase = none) :
    r.read "OR" = { r with query.hasOr := true, afterOr := true } := by
  have h : queryWords "OR" = ["or"] := by decide +kernel
  rw [read, h]
  exact step_of_phrase_eq_none hp _

theorem read_required (h : IsTerm word) (q : Query) :
    (idle q).read (Query.writeTerm word) = idle (q.addRequired word) := by
  rw [read_writeTerm h rfl]
  simp [addTerm, idle, h.nonempty, Query.addRequired]

theorem read_optional (h : IsTerm word) (q : Query) :
    (idle q).read (Query.writeOptional word) = idle (q.addOptional word) := by
  have ht : Query.writeOptional word = "OR" ++ " " ++ Query.writeTerm word := rfl
  rw [ht, read_append, read_or rfl, read_writeTerm h rfl]
  simp [addTerm, idle, h.nonempty, Query.addOptional]

theorem read_excluded (h : IsExcludable word) (hp : r.phrase = none) :
    r.read (Query.writeExcluded word) = { r with query := r.query.addExcluded word } := by
  have ht : (Query.writeExcluded word).toList = '-' :: word.toList := by simp [Query.writeExcluded]
  have hm : Legible ['-'] := by decide +kernel
  rw [read_legible ht (by simp) (hm.append h.legible), step_of_phrase_eq_none hp]
  show r.outside ('-' :: word.toList) = _
  rw [outside_minus, h.trimBoth_eq_self]
  simp [exclude, h.nonempty, Query.addExcluded]

theorem read_rest {phrase : List String} (h : IsPhrase phrase) (q : Query) (afterOr : Bool)
    (words : List String) :
    (⟨q, afterOr, some words⟩ : QueryReader).read (" ".intercalate phrase ++ "\"") =
      ⟨q.addPhrase (words ++ phrase), afterOr, none⟩ := by
  induction phrase generalizing words with
  | nil => exact absurd rfl h.nonempty
  | cons word rest ih =>
    have hw := h.words word (by simp)
    cases rest with
    | nil =>
      have ht : (" ".intercalate [word] ++ "\"").toList = word.toList ++ ['"'] := by simp
      rw [read_legible ht (by simp) (hw.legible.append legible_quote)]
      show inside _ words _ = _
      rw [inside, stripBack?_eq_some.2 rfl]
      simp [pushWord_toList hw]
    | cons next rest =>
      rw [String.intercalate_cons_cons, String.append_assoc, read_append,
        read_legible rfl hw.nonempty hw.legible]
      have hs : (⟨q, afterOr, some words⟩ : QueryReader).step word.toList =
          ⟨q, afterOr, some (words ++ [word])⟩ := by
        show inside _ words _ = _
        rw [inside, stripBack?_eq_none.2 (h.inner word (by simp))]
        simp [pushWord_toList hw]
      rw [hs, ih h.tail]
      simp

theorem read_phrase {phrase : List String} (h : IsPhrase phrase) (hp : r.phrase = none) :
    r.read (Query.writePhrase phrase) = { r with query := r.query.addPhrase phrase } := by
  cases phrase with
  | nil => exact absurd rfl h.nonempty
  | cons word rest =>
    have hw := h.words word (by simp)
    cases rest with
    | nil =>
      have ht : (Query.writePhrase [word]).toList = '"' :: (word.toList ++ ['"']) := by
        simp [Query.writePhrase]
      rw [read_legible ht (by simp) (legible_quote.append (hw.legible.append legible_quote)),
        step_of_phrase_eq_none hp, outside_quote, openPhrase, stripBack?_eq_some.2 rfl]
      simp [pushWord_toList hw]
    | cons next rest =>
      have ht : Query.writePhrase (word :: next :: rest) =
          "\"" ++ word ++ " " ++ (" ".intercalate (next :: rest) ++ "\"") := by
        simp [Query.writePhrase, String.append_assoc]
      have hf : ("\"" ++ word).toList = '"' :: word.toList := by simp
      have hs : r.step ('"' :: word.toList) = ⟨r.query, r.afterOr, some [word]⟩ := by
        rw [step_of_phrase_eq_none hp, outside_quote, openPhrase,
          stripBack?_eq_none.2 (h.inner word (by simp))]
        simp [pushWord_toList hw]
      rw [ht, read_append, read_legible hf (by simp) (legible_quote.append hw.legible), hs,
        read_rest h.tail, ← hp]
      rfl

theorem foldl_read {α : Type} {P : α → Prop} {write : α → String} {add : Query → α → Query}
    (hr : ∀ {a}, P a → ∀ q, (idle q).read (write a) = idle (add q a)) {items : List α}
    (h : ∀ a ∈ items, P a) (q : Query) :
    (items.map write).foldl read (idle q) = idle (items.foldl add q) := by
  induction items generalizing q with
  | nil => rfl
  | cons a items ih =>
    rw [List.map_cons, List.foldl_cons, hr (h a (by simp)), ih fun b hb => h b (by simp [hb])]
    rfl

end QueryReader

open QueryReader in
theorem Query.parse_render {q : Query} (h : q.Expressible) : Query.parse q.render = q := by
  have hx : ∀ {word}, IsExcludable word → ∀ q : Query,
      (idle q).read (writeExcluded word) = idle (q.addExcluded word) := fun h q => read_excluded h rfl
  have hp : ∀ {phrase}, IsPhrase phrase → ∀ q : Query,
      (idle q).read (writePhrase phrase) = idle (q.addPhrase phrase) := fun h q => read_phrase h rfl
  have hr : QueryReader.read {} q.render =
      (if q.hasOr && q.optional.isEmpty then ["OR"] else []).foldl read
        (idle { q with hasOr := !q.optional.isEmpty }) := by
    rw [render, read_intercalate, parts]
    simp only [List.foldl_append]
    rw [show ({} : QueryReader) = idle {} from rfl,
      foldl_read read_required (by simpa using h.required),
      foldl_read read_optional (by simpa using h.optional),
      foldl_read hx (by simpa using h.excluded), foldl_read hp h.phrases,
      foldl_addRequired, foldl_addOptional, foldl_addExcluded,
      foldl_addPhrase _ fun phrase hp => (h.phrases phrase hp).nonempty]
    simp [insertMany_toList, Std.ExtTreeSet.isEmpty_toList]
  show (QueryReader.read {} q.render).finish = q
  rw [hr]
  split
  next hc =>
    have ho : q.hasOr = true := (Bool.and_eq_true_iff.1 hc).1
    show ((idle _).read "OR").finish = q
    rw [read_or rfl, ← ho]
    rfl
  next hc =>
    have ho : q.hasOr = !q.optional.isEmpty := by
      cases he : q.optional.isEmpty with
      | true => simpa [he] using hc
      | false => exact h.hasOr fun hn => by simp [hn] at he
    show (idle _).finish = q
    rw [← ho]
    rfl

/-- The queries that can be read are the expressible ones, and each is read from its rendering. -/
theorem Query.image_parse : (∀ text, (Query.parse text).Expressible) ∧
    ∀ q : Query, q.Expressible → Query.parse q.render = q :=
  ⟨Query.expressible_parse, fun _ h => Query.parse_render h⟩

def rockQuery : Query where
  required := Std.ExtTreeSet.ofList ["or", "r\"b"] compare
  optional := Std.ExtTreeSet.ofList ["a-b"] compare
  excluded := Std.ExtTreeSet.ofList ["-x", "ß"] compare
  phrases := [["-rock", "\"or", "roll\""], ["\""]]
  hasOr := true

theorem Query.image_parse_rock : rockQuery.Expressible ∧
    rockQuery.render = "or\" r\"b\" OR a-b\" --x -ß \"-rock \"or roll\"\" \"\"\"" ∧
    Query.parse rockQuery.render = rockQuery := by
  have h : rockQuery.Expressible := by decide +kernel
  exact ⟨h, by decide +kernel, Query.image_parse.2 rockQuery h⟩

end Concordance

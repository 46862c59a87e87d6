import Concordance.Records.Lines

/-!
Numbers of lines.  A byte string is cut behind each newline, and each line is read by itself; what it
gives depends on the lines before it only through its number.  That number counts the lines before
that are text, so it is the place of the line exactly if all of them are.
-/

namespace Concordance

def isText (line : List UInt8) : Bool := (decodeText? line).isSome

/-- What a line gives under a number: a record or a fault, or nothing if it is blank. -/
def lineItem? (number : Nat) (line : List UInt8) : Option (Result Record) :=
  match decodeText? line with
  | none => some (.error (.io "stream did not contain valid UTF-8"))
  | some text => if (trimBlank text).isEmpty then none else some (readLine number (trimBlank text))

/-- The lines of a byte string: each ends behind the next newline, the last one maybe without one. -/
inductive LinesOf : List UInt8 → List (List UInt8) → Prop where
  | nil : LinesOf [] []
  | last {body : List UInt8} : 10 ∉ body → body ≠ [] → LinesOf body [body]
  | cons {body rest : List UInt8} {lines : List (List UInt8)} : 10 ∉ body → LinesOf rest lines →
      LinesOf (body ++ 10 :: rest) ((body ++ [10]) :: lines)

/-- A line where it stands: it begins at the start or behind a newline, and ends with the next
newline or at the end. -/
structure StandsBetween (before line after : List UInt8) : Prop where
  start : ∀ b, before.getLast? = some b → b = 10
  stop : ∃ body, 10 ∉ body ∧ (line = body ++ [10] ∨ line = body ∧ body ≠ [] ∧ after = [])

section Split

variable {body bytes : List UInt8} {lines : List (List UInt8)}

theorem splitLines_append (h : 10 ∉ body) (rest : List UInt8) :
    splitLines (body ++ 10 :: rest) = (body ++ [10]) :: splitLines rest := by
  induction body with
  | nil => rfl
  | cons b body ih =>
    have hne : (b == 10) = false := by simpa using (List.ne_of_not_mem_cons h).symm
    have hr := List.not_mem_of_not_mem_cons h
    rw [List.cons_append, splitLines, List.foldr_cons, ← splitLines, ih hr, consByte, hne]
    rfl

theorem splitLines_of_not_mem (h : 10 ∉ body) (hn : body ≠ []) : splitLines body = [body] := by
  induction body with
  | nil => exact absurd rfl hn
  | cons b body ih =>
    have hne : (b == 10) = false := by simpa using (List.ne_of_not_mem_cons h).symm
    have hr := List.not_mem_of_not_mem_cons h
    rw [splitLines, List.foldr_cons, ← splitLines]
    unfold consByte
    rw [hne]
    cases body with
    | nil => rfl
    | cons c body =>
      rw [ih hr (List.cons_ne_nil c body)]
      rfl

theorem LinesOf.splitLines_eq (h : LinesOf bytes lines) : splitLines bytes = lines := by
  induction h with
  | nil => rfl
  | last hb hn => exact splitLines_of_not_mem hb hn
  | cons hb _ ih => rw [splitLines_append hb, ih]

theorem exists_linesOf (bytes : List UInt8) : ∃ lines, LinesOf bytes lines := by
  induction bytes with
  | nil => exact ⟨[], .nil⟩
  | cons b bytes ih =>
    obtain ⟨lines, h⟩ := ih
    by_cases hb : b = 10
    · subst hb
      exact ⟨_, .cons (List.not_mem_nil (a := 10)) h⟩
    · have hm : ∀ {body : List UInt8}, 10 ∉ body → 10 ∉ b :: body := fun hn => by
        simpa [Ne.symm hb] using hn
      cases h with
      | nil => exact ⟨_, .last (hm (by simp)) (by simp)⟩
      | last hn => exact ⟨_, .last (hm hn) (by simp)⟩
      | cons hn hr => exact ⟨_, .cons (hm hn) hr⟩

theorem splitLines_eq_append {earlier later : List (List UInt8)} {line : List UInt8}
    (h : splitLines bytes = earlier ++ line :: later) :
    ∃ before after, bytes = before ++ line ++ after ∧ StandsBetween before line after ∧
      splitLines before = earlier ∧ before.count 10 = earlier.length := by
  obtain ⟨lines, hl⟩ := exists_linesOf bytes
  rw [hl.splitLines_eq] at h
  induction hl generalizing earlier with
  | nil => simp at h
  | @last body hb hn =>
    obtain ⟨rfl, rfl, -⟩ : earlier = [] ∧ line = body ∧ later = [] := by
      simpa [List.singleton_eq_append_iff] using h
    exact ⟨[], [], by simp, ⟨by simp, line, hb, .inr ⟨rfl, hn, rfl⟩⟩, rfl, rfl⟩
  | @cons body rest _ hb _ ih =>
    cases earlier with
    | nil =>
      obtain ⟨rfl, -⟩ := List.cons.inj h
      exact ⟨[], rest, by simp, ⟨by simp, body, hb, .inl rfl⟩, rfl, rfl⟩
    | cons first earlier =>
      rw [List.cons_append, List.cons.injEq] at h
      obtain ⟨rfl, h⟩ := h
      obtain ⟨before, after, rfl, hs, he, hc⟩ := ih h
      refine ⟨body ++ 10 :: before, after, by simp, ⟨?_, hs.stop⟩, ?_, ?_⟩
      · intro b hl
        rw [List.getLast?_append, List.getLast?_cons] at hl
        cases hq : before.getLast? with
        | none => simpa [hq] using hl.symm
        | some c =>
          obtain rfl : c = b := by simpa [hq] using hl
          exact hs.start c hq
      · rw [splitLines_append hb, he]
      · rw [List.count_append, List.count_eq_zero_of_not_mem hb, List.count_cons_self, hc,
          List.length_cons, Nat.zero_add]

end Split

section Read

variable {count number n : Nat} {kind : String} {line : List UInt8} {item : Result Record}

theorem readLines_cons (count : Nat) (line : List UInt8) (rest : List (List UInt8)) :
    readLines count (line :: rest) = (lineItem? (count + 1) line).toList ++
      readLines (count + if isText line then 1 else 0) rest := by
  unfold lineItem? isText
  rw [readLines]
  cases decodeText? line with
  | none => rfl
  | some text => dsimp only; split <;> rfl

/-- Each item comes from one line, under one more than the number of lines before it that are
text. -/
theorem exists_line {lines : List (List UInt8)} {i : Nat} (h : (readLines count lines)[i]? = some item) :
    ∃ earlier line later, lines = earlier ++ line :: later ∧
      (readLines count earlier).length = i ∧
      lineItem? (count + earlier.countP isText + 1) line = some item := by
  induction lines generalizing count i with
  | nil => cases h
  | cons line lines ih =>
    have hrest : ∀ {j : Nat},
        (readLines (count + if isText line then 1 else 0) lines)[j]? = some item →
        ∃ earlier other later, line :: lines = earlier ++ other :: later ∧
          (readLines count earlier).length = (lineItem? (count + 1) line).toList.length + j ∧
          lineItem? (count + earlier.countP isText + 1) other = some item := by
      intro j hj
      obtain ⟨earlier, other, later, rfl, hl, hi⟩ := ih hj
      refine ⟨line :: earlier, other, later, rfl, ?_, ?_⟩
      · rw [readLines_cons, List.length_append, hl]
      · rwa [List.countP_cons, Nat.add_comm (earlier.countP isText), ← Nat.add_assoc]
    rw [readLines_cons] at h
    cases hl : lineItem? (count + 1) line with
    | none =>
      rw [hl] at h hrest
      simpa using hrest h
    | some first =>
      rw [hl] at h hrest
      cases i with
      | zero =>
        obtain rfl : first = item := by simpa using h
        exact ⟨[], line, lines, rfl, rfl, by simpa using hl⟩
      | succ i => simpa [Nat.add_comm] using hrest (j := i) (by simpa using h)

theorem eq_of_lineItem? (h : lineItem? number line = some (.error (.record (.lineNotObject n kind)))) :
    n = number := by
  unfold lineItem? readLine at h
  split at h
  · cases h
  · split at h
    · cases h
    · split at h
      · cases h
      · split at h <;> cases h
        rfl

end Read

/-- A fault that names a line comes from one line of the byte string, which gives the fault under its
number.  The number falls short of the place of the line, one more than the newlines before it, by the
lines before that are no text; so it is the place exactly if all of them are text. -/
theorem recordLines_number_iff {bytes : List UInt8} {i n : Nat} {kind : String}
    (h : (recordLines bytes)[i]? = some (.error (.record (.lineNotObject n kind)))) :
    ∃ before line after, bytes = before ++ line ++ after ∧ StandsBetween before line after ∧
      (recordLines before).length = i ∧
      lineItem? n line = some (.error (.record (.lineNotObject n kind))) ∧
      n + (splitLines before).countP (!isText ·) = before.count 10 + 1 ∧
      (n = before.count 10 + 1 ↔ ∀ line ∈ splitLines before, isText line = true) := by
  obtain ⟨earlier, line, later, hs, hi, hitem⟩ := exists_line h
  obtain ⟨before, after, hb, hstands, rfl, hcount⟩ := splitLines_eq_append hs
  have hn : n = (splitLines before).countP isText + 1 := by
    rw [eq_of_lineItem? hitem, Nat.zero_add]
  have hlen := List.length_eq_countP_add_countP isText (l := splitLines before)
  have hall := List.countP_eq_length (p := isText) (l := splitLines before)
  rw [Nat.zero_add, ← hn] at hitem
  refine ⟨before, line, after, hb, hstands, hi, hitem, ?_, ?_⟩
  · rw [hn, hcount, hlen]
    simp only [Bool.not_eq_true, Bool.decide_eq_false]
    omega
  · rw [← hall, hn, hcount]
    omega

theorem recordLines_number_iff_array :
    let bytes : List UInt8 := [0x7b, 0x7d, 10, 0xff, 10, 10, 0x5b, 0x5d]
    let fault : Result Record := .error (.record (.lineNotObject 3 "array"))
    (recordLines bytes)[2]? = some fault ∧
      ∃ before line after, bytes = before ++ line ++ after ∧ StandsBetween before line after ∧
        (recordLines before).length = 2 ∧ lineItem? 3 line = some fault ∧
        3 + (splitLines before).countP (!isText ·) = before.count 10 + 1 ∧
        (3 = before.count 10 + 1 ↔ ∀ line ∈ splitLines before, isText line = true) := by
  intro bytes fault
  have h : (recordLines bytes)[2]? = some fault := rfl
  exact ⟨h, recordLines_number_iff h⟩

/-- A line that is no text is not counted, so the fault of line two names line one. -/
theorem recordLines_miscounts :
    let before : List UInt8 := [0xff, 10]
    let line : List UInt8 := [0x35, 10]
    (recordLines (before ++ line))[1]? = some (.error (.record (.lineNotObject 1 "number"))) ∧
      (recordLines before).length = 1 ∧ StandsBetween before line [] ∧
      before.count 10 + 1 = 2 :=
  ⟨rfl, rfl, ⟨fun _ hb => (Option.some.inj hb).symm, [0x35], by decide, .inl rfl⟩, rfl⟩

end Concordance

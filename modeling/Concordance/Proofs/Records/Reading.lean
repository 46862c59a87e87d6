import Concordance.Proofs.Records.Numbering
import Concordance.Proofs.Result
import Concordance.Proofs.Text.Utf8
import Concordance.Proofs.Text.Words
import Concordance.Records.File

namespace Concordance

def isBlankLine (line : List UInt8) : Bool :=
  (decodeText? line).any fun text => text.toList.all isBlank

/-- The item that a line gives; only a fault of a value other than an object tells a number. -/
inductive Gives (line : List UInt8) : Result Record → Prop where
  | notText : decodeText? line = none →
      Gives line (.error (.io "stream did not contain valid UTF-8"))
  | malformed {text : String} : decodeText? line = some text →
      Json.read? (trimBlank text) = none → Gives line (.error .json)
  | record {text : String} {members : List (String × Json)} : decodeText? line = some text →
      Json.read? (trimBlank text) = some (.obj members) →
      Gives line (.ok (.ofList members compare))
  | notObject {text : String} {value : Json} {number : Nat} : decodeText? line = some text →
      Json.read? (trimBlank text) = some value → (∀ members, value ≠ .obj members) →
      Gives line (.error (.record (.lineNotObject number value.kind)))

def moved (k : Nat) : Result Record → Result Record
  | .error (.record (.lineNotObject number kind)) =>
    .error (.record (.lineNotObject (number + k) kind))
  | item => item

theorem splitLines_join (bytes more : List UInt8) :
    splitLines (bytes ++ 10 :: more) = splitLines (bytes ++ [10]) ++ splitLines more := by
  obtain ⟨lines, h⟩ := exists_linesOf bytes
  induction h with
  | nil => rfl
  | last hb =>
    rw [splitLines_append hb, splitLines_append hb]
    rfl
  | cons hb _ ih =>
    simp only [List.append_assoc, List.cons_append, splitLines_append hb, ih]

section Items

variable {number : Nat} {line : List UInt8}

theorem trimBlank_isEmpty (text : String) :
    (trimBlank text).isEmpty = text.toList.all isBlank := by
  rw [Bool.eq_iff_iff, List.all_eq_true, ← trimBoth_eq_nil_iff, trimBlank]
  simp

theorem lineItem?_of_blank (h : isBlankLine line = true) : lineItem? number line = none := by
  obtain ⟨text, ht, hb⟩ := (Option.any_eq_true ..).1 h
  simp [lineItem?, ht, trimBlank_isEmpty, hb]

theorem exists_gives (number : Nat) (h : isBlankLine line = false) :
    ∃ item, lineItem? number line = some item ∧ Gives line item := by
  unfold isBlankLine at h
  unfold lineItem?
  cases ht : decodeText? line with
  | none => exact ⟨_, rfl, .notText ht⟩
  | some text =>
    rw [ht] at h
    have hn : (trimBlank text).isEmpty = false := (trimBlank_isEmpty text).trans h
    simp only [hn, readLine]
    cases hv : Json.read? (trimBlank text) with
    | none => exact ⟨_, rfl, .malformed ht hv⟩
    | some value =>
      cases value with
      | obj members => exact ⟨_, rfl, .record ht hv⟩
      | _ => exact ⟨_, rfl, .notObject ht hv nofun⟩

theorem gives_readLines (count : Nat) (lines : List (List UInt8)) :
    List.Forall₂ Gives (lines.filter (!isBlankLine ·)) (readLines count lines) := by
  induction lines generalizing count with
  | nil => exact .nil
  | cons line lines ih =>
    rw [readLines_cons]
    cases hb : isBlankLine line with
    | true =>
      rw [lineItem?_of_blank hb, List.filter_cons_of_neg (by simp [hb])]
      exact ih _
    | false =>
      obtain ⟨item, hi, hg⟩ := exists_gives (count + 1) hb
      rw [hi, List.filter_cons_of_pos (by simp [hb])]
      exact .cons hg (ih _)

theorem lineItem?_add (k : Nat) :
    lineItem? (number + k) line = (lineItem? number line).map (moved k) := by
  unfold lineItem? readLine
  split
  next => rfl
  next =>
    split
    next => rfl
    next =>
      split
      next => rfl
      next => split <;> rfl

theorem readLines_add (count k : Nat) (lines : List (List UInt8)) :
    readLines (count + k) lines = (readLines count lines).map (moved k) := by
  induction lines generalizing count with
  | nil => rfl
  | cons line lines ih =>
    rw [readLines_cons, readLines_cons, List.map_append, ← ih, Nat.add_right_comm count k 1,
      lineItem?_add, Option.toList_map, Nat.add_right_comm]

theorem readLines_append (count : Nat) (lines more : List (List UInt8)) :
    readLines count (lines ++ more) =
      readLines count lines ++ readLines (count + lines.countP isText) more := by
  induction lines generalizing count with
  | nil => rfl
  | cons line lines ih =>
    rw [List.cons_append, readLines_cons, readLines_cons, ih, List.append_assoc, List.countP_cons,
      Nat.add_comm (lines.countP isText), Nat.add_assoc]

end Items

section Newline

theorem lineItem?_newline (number : Nat) (line : List UInt8) :
    lineItem? number (line ++ [10]) = lineItem? number line := by
  unfold lineItem?
  rw [decodeText?_newline]
  cases decodeText? line with
  | none => rfl
  | some text =>
    have ht : trimBlank (text ++ "\n") = trimBlank text := by
      simp only [trimBlank, String.toList_append]
      exact congrArg String.ofList (trimBoth_concat (by decide) text.toList)
    simp only [Option.map_some, ht]

theorem readLines_newline (count : Nat) (bytes : List UInt8) :
    readLines count (splitLines (bytes ++ [10])) = readLines count (splitLines bytes) := by
  obtain ⟨lines, h⟩ := exists_linesOf bytes
  induction h generalizing count with
  | nil => rfl
  | last hb hn =>
    rw [splitLines_append hb, splitLines_of_not_mem hb hn, readLines_cons, readLines_cons,
      lineItem?_newline]
    rfl
  | cons hb _ ih =>
    rw [List.append_assoc, List.cons_append, splitLines_append hb, splitLines_append hb,
      readLines_cons, readLines_cons, ih]

theorem recordLines_append (bytes more : List UInt8) :
    recordLines (bytes ++ 10 :: more) = recordLines bytes ++
      (recordLines more).map (moved ((splitLines (bytes ++ [10])).countP isText)) := by
  unfold recordLines
  rw [splitLines_join, readLines_append, readLines_newline, readLines_add]

end Newline

/-- Each line that is not blank gives one item, in the order of the lines.  What stands behind a newline
gives the same items as by itself, under numbers moved by the lines before it that are text.  A file of
lines is its records if no item is a fault, and otherwise the first fault. -/
theorem recordLines_independent (bytes more : List UInt8) :
    (∃ lines, LinesOf bytes lines ∧
        List.Forall₂ Gives (lines.filter (!isBlankLine ·)) (recordLines bytes)) ∧
      recordLines (bytes ++ 10 :: more) = recordLines bytes ++
        (recordLines more).map (moved ((splitLines (bytes ++ [10])).countP isText)) ∧
      ∀ path, isLineFile path = true →
        (∀ records, readRecords path bytes = .ok records ↔ recordLines bytes = records.map .ok) ∧
        ∀ fault, readRecords path bytes = .error fault ↔
          ∃ (records : List Record) (later : List (Result Record)),
            recordLines bytes = records.map .ok ++ .error fault :: later := by
  refine ⟨?_, recordLines_append bytes more, fun path h => ?_⟩
  · obtain ⟨lines, hl⟩ := exists_linesOf bytes
    refine ⟨lines, hl, ?_⟩
    rw [recordLines, hl.splitLines_eq]
    exact gives_readLines 0 lines
  · have hread : readRecords path bytes = (recordLines bytes).mapM id := if_pos h
    rw [hread]
    exact ⟨fun _ => mapM_id_eq_ok, fun _ => mapM_id_eq_error⟩

theorem recordLines_independent_foxes :
    let path := "woods/foxes.jsonl"
    let bytes : List UInt8 := [0xff, 10, 0x20, 0x0d, 10, 0x7b, 0x7d, 10, 0x35]
    let more : List UInt8 := [0x5b, 0x5d]
    isLineFile path = true ∧ (recordLines bytes).length = 3 ∧
      recordLines (bytes ++ 10 :: more) = recordLines bytes ++
        (recordLines more).map (moved ((splitLines (bytes ++ [10])).countP isText)) ∧
      (∀ records, readRecords path bytes = .ok records ↔ recordLines bytes = records.map .ok) ∧
      ∀ fault, readRecords path bytes = .error fault ↔
        ∃ (records : List Record) (later : List (Result Record)),
          recordLines bytes = records.map .ok ++ .error fault :: later := by
  intro path bytes more
  have h : isLineFile path = true := by decide +kernel
  obtain ⟨-, happend, hfile⟩ := recordLines_independent bytes more
  exact ⟨h, rfl, happend, hfile path h⟩

end Concordance

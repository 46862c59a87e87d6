import Concordance.Error
import Concordance.Json.Draft
import Concordance.Text.Utf8
import Concordance.Text.Words

/-!
Records one to a line.  Bytes are split at newlines first; a line that is not valid UTF-8 is a fault
of its own and is not counted, a blank line is counted and passed over, and every other line must
hold one JSON object.
-/

namespace Concordance

def consByte (b : UInt8) (lines : List (List UInt8)) : List (List UInt8) :=
  if b == 10 then [b] :: lines
  else match lines with
    | line :: rest => (b :: line) :: rest
    | [] => [[b]]

/-- The lines of a byte string.  Each ends with its newline; the last one may have none. -/
def splitLines (bytes : List UInt8) : List (List UInt8) := bytes.foldr consByte []

def readLine (number : Nat) (text : String) : Result Record :=
  match Json.read? text with
  | none => .error .json
  | some value =>
    match value.record? with
    | some record => .ok record
    | none => .error (.record (.lineNotObject number value.kind))

def readLines (count : Nat) : List (List UInt8) → List (Result Record)
  | [] => []
  | line :: rest =>
    match decodeText? line with
    | none => .error (.io "stream did not contain valid UTF-8") :: readLines count rest
    | some text =>
      if (trimBlank text).isEmpty then readLines (count + 1) rest
      else readLine (count + 1) (trimBlank text) :: readLines (count + 1) rest

def recordLines (bytes : List UInt8) : List (Result Record) := readLines 0 (splitLines bytes)

theorem flatten_consByte (b : UInt8) (lines : List (List UInt8)) :
    (consByte b lines).flatten = b :: lines.flatten := by
  unfold consByte
  split
  · simp
  · split <;> simp

theorem flatten_splitLines (bytes : List UInt8) : (splitLines bytes).flatten = bytes := by
  induction bytes with
  | nil => rfl
  | cons b bytes ih => rw [splitLines, List.foldr_cons, flatten_consByte, ← splitLines, ih]

end Concordance

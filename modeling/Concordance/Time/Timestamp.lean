import Concordance.Json.Basic
import Concordance.Number.Exact
import Concordance.Number.Read
import Concordance.Text.Words
import Concordance.Time.Instant

namespace Concordance

structure Clock where
  date : Date
  hour : Nat
  minute : Nat
  second : Nat
  nanos : Nat
  deriving DecidableEq, Repr

namespace Clock

/-- Whether the calendar has the date and a day the time; second 60 is a leap second. -/
def isValid (c : Clock) : Bool :=
  c.date.isValid && c.hour < 24 && c.minute < 60 && c.second ≤ 60

def instant? (c : Clock) (offset : Int) : Option Instant :=
  if c.isValid then
    let minutes : Int := c.date.dayNumber * 1440 + c.hour * 60 + c.minute
    let leap := c.second == 60
    some ⟨minutes * 60 + (if leap then 59 else c.second) - offset,
      (if leap then 1000000000 else 0) + c.nanos⟩
  else none

end Clock

namespace Timestamp

def mark? (c : Char) : List Char → Option (List Char)
  | d :: cs => if d == c then some cs else none
  | [] => none

def digits? (least most : Nat) (cs : List Char) : Option (Nat × List Char) :=
  let row := (cs.take most).takeWhile Char.isDigit
  if row.length < least then none else some (digitsValue row, cs.drop row.length)

def field? (most : Nat) (cs : List Char) : Option (Nat × List Char) :=
  digits? 1 most (cs.dropWhile isBlank)

/-- Reads a year after blanks: up to four digits, or any number of them after a sign. -/
def year? (cs : List Char) : Option (Int × List Char) :=
  match cs.dropWhile isBlank with
  | '-' :: cs => (digits? 1 cs.length cs).map fun (n, rest) => (-(n : Int), rest)
  | '+' :: cs => (digits? 1 cs.length cs).map fun (n, rest) => ((n : Int), rest)
  | cs => (digits? 1 4 cs).map fun (n, rest) => ((n : Int), rest)

/-- Reads a fraction of a second if a point comes first: its first nine digits count. -/
def fraction? : List Char → Option (Nat × List Char)
  | '.' :: cs =>
    let row := cs.takeWhile Char.isDigit
    let kept := row.take 9
    if row.isEmpty then none
    else some (digitsValue kept * Nat.pow 10 (9 - kept.length), cs.drop row.length)
  | cs => some (0, cs)

def sign? : List Char → Option (Bool × List Char)
  | '+' :: cs => some (false, cs)
  | '-' :: cs => some (true, cs)
  | '−' :: cs => some (true, cs)
  | _ => none

/-- Reads an offset in seconds: `Z`, or a sign, hours and minutes, below a day. -/
def offset? : List Char → Option (Int × List Char)
  | 'Z' :: cs => some (0, cs)
  | 'z' :: cs => some (0, cs)
  | cs => do
    let (negative, cs) ← sign? cs
    let (hours, cs) ← digits? 2 2 cs
    let cs ← mark? ':' cs
    let (minutes, cs) ← digits? 2 2 cs
    let seconds : Int := hours * 3600 + minutes * 60
    if minutes < 60 && hours < 24 then some (if negative then -seconds else seconds, cs) else none

def between? : List Char → Option (List Char)
  | 'T' :: cs => some cs
  | 't' :: cs => some cs
  | ' ' :: cs => some cs
  | _ => none

def readInstant? (cs : List Char) : Option Instant := do
  let (year, cs) ← digits? 4 4 cs
  let cs ← mark? '-' cs
  let (month, cs) ← digits? 2 2 cs
  let cs ← mark? '-' cs
  let (day, cs) ← digits? 2 2 cs
  let cs ← between? cs
  let (hour, cs) ← digits? 2 2 cs
  let cs ← mark? ':' cs
  let (minute, cs) ← digits? 2 2 cs
  let cs ← mark? ':' cs
  let (second, cs) ← digits? 2 2 cs
  let (nanos, cs) ← fraction? cs
  let (offset, cs) ← offset? cs
  if cs.isEmpty then (Clock.mk ⟨year, month, day⟩ hour minute second nanos).instant? offset
  else none

def date? (cs : List Char) : Option (Date × List Char) := do
  let (year, cs) ← year? cs
  let cs ← mark? '-' cs
  let (month, cs) ← field? 2 cs
  let cs ← mark? '-' cs
  let (day, cs) ← field? 2 cs
  return (⟨year, month, day⟩, cs)

def readClock? (between : List Char → Option (List Char)) (cs : List Char) : Option Instant := do
  let (date, cs) ← date? cs
  let cs ← between cs
  let (hour, cs) ← field? 2 cs
  let cs ← mark? ':' cs
  let (minute, cs) ← field? 2 cs
  let cs ← mark? ':' cs
  let (second, cs) ← field? 2 cs
  let (nanos, cs) ← fraction? cs
  if cs.isEmpty then (Clock.mk date hour minute second nanos).instant? 0 else none

def readDate? (cs : List Char) : Option Instant := do
  let (date, cs) ← date? cs
  if cs.isEmpty then (Clock.mk date 0 0 0 0).instant? 0 else none

def readText? (s : String) : Option Instant :=
  let cs := (trimBlank s).toList
  readInstant? cs
    <|> readClock? (mark? 'T') cs
    <|> readClock? (fun cs => some (cs.dropWhile isBlank)) cs
    <|> readDate? cs

def ofSeconds? (seconds : Int) (nanos : Nat) : Option Instant :=
  let t : Instant := ⟨seconds, nanos⟩
  if t.inRange then some t else none

def floorOf (e : Exact) : Int :=
  if e.negative then -((e.numerator + e.denominator - 1) / e.denominator : Nat)
  else (e.numerator / e.denominator : Nat)

/-- The instant a number of seconds from the start of 1970, rounded to nanoseconds but never to the
next second. -/
def ofDouble? (x : Float) : Option Instant := do
  let whole := floorOf (← Exact.ofFloat? x)
  let rest ← Exact.ofFloat? ((x - Float.ofInt whole) * 1000000000)
  ofSeconds? whole (min (roundDiv .up rest.numerator rest.denominator) 999999999)

def read? : Json → Option Instant
  | .str s => readText? s
  | .int n => ofDouble? (Float.ofInt n)
  | .double x => ofDouble? x
  | _ => none

end Timestamp

end Concordance

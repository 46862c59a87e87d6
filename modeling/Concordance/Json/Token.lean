import Concordance.Json.Numeral

/-!
The tokens of a JSON text: marks, words and literals.  A text is read one character at a time by a
scanner, whose state is what it is in the middle of.  A byte that belongs to no character may stand
in a string alone, which then has no text.
-/

namespace Concordance.Json

/-- A token.  A string that is not made of whole characters has no text. -/
inductive Token where
  | openArray | closeArray | openObject | closeObject | comma | colon
  | null
  | bool (b : Bool)
  | number (n : Numeral)
  | str (text : Option String)

inductive Escape where
  | plain
  | backslash
  | unit (count value : Nat)
  deriving DecidableEq, Repr

/-- A string being read: its characters from the last to the first, whether they are all whole, and
the first half of a pair of code units that waits for the second. -/
structure Quoted where
  chars : List Char
  whole : Bool
  half : Option Nat
  escape : Escape
  deriving DecidableEq, Repr

inductive Scan where
  | between
  | word (chars : List Char)
  | numeral (chars : List Char)
  | quoted (q : Quoted)

def hexValue? (c : Char) : Option Nat :=
  if c.isDigit then some (c.toNat - '0'.toNat)
  else if 'a' ≤ c && c ≤ 'f' then some (c.toNat - 'a'.toNat + 10)
  else if 'A' ≤ c && c ≤ 'F' then some (c.toNat - 'A'.toNat + 10)
  else none

def escaped? : Char → Option Char
  | '"' => some '"'
  | '\\' => some '\\'
  | '/' => some '/'
  | 'b' => some '\x08'
  | 'f' => some '\x0c'
  | 'n' => some '\n'
  | 'r' => some '\r'
  | 't' => some '\t'
  | _ => none

def Quoted.push (q : Quoted) (c : Char) : Quoted :=
  ⟨c :: q.chars, q.whole && q.half.isNone, none, .plain⟩

def Quoted.pushUnit (q : Quoted) (unit : Nat) : Quoted :=
  let first := 0xD800 ≤ unit && unit < 0xDC00
  let second := 0xDC00 ≤ unit && unit < 0xE000
  match q.half with
  | some high =>
    if second then
      ⟨Char.ofNat (0x10000 + (high - 0xD800) * 0x400 + (unit - 0xDC00)) :: q.chars, q.whole, none,
        .plain⟩
    else ⟨q.chars, false, none, .plain⟩
  | none =>
    if first then { q with half := some unit, escape := .plain }
    else if second then { q with whole := false, escape := .plain }
    else ⟨Char.ofNat unit :: q.chars, q.whole, none, .plain⟩

def Quoted.text (q : Quoted) : Option String :=
  if q.whole && q.half.isNone then some (String.ofList q.chars.reverse) else none

def Quoted.step (q : Quoted) (c : Char) : Option (Quoted ⊕ Token) :=
  match q.escape with
  | .plain =>
    if c == '"' then some (.inr (.str q.text))
    else if c == '\\' then some (.inl { q with escape := .backslash })
    else if c.toNat < 0x20 then none
    else some (.inl (q.push c))
  | .backslash =>
    if c == 'u' then some (.inl { q with escape := .unit 0 0 })
    else (escaped? c).map fun d => .inl (q.push d)
  | .unit count value =>
    (hexValue? c).map fun digit =>
      let value := 16 * value + digit
      if count == 3 then .inl (q.pushUnit value)
      else .inl { q with escape := .unit (count + 1) value }

def wordToken? (chars : List Char) : Option Token :=
  match String.ofList chars with
  | "null" => some .null
  | "true" => some (.bool true)
  | "false" => some (.bool false)
  | _ => none

def isNumeral (c : Char) : Bool :=
  c.isDigit || c == '-' || c == '+' || c == '.' || c == 'e' || c == 'E'

structure Scanner where
  scan : Scan
  tokens : List Token

def Scanner.start (tokens : List Token) (c : Char) : Option Scanner :=
  let mark (t : Token) : Option Scanner := some ⟨.between, t :: tokens⟩
  match c with
  | '[' => mark .openArray
  | ']' => mark .closeArray
  | '\x7b' => mark .openObject
  | '\x7d' => mark .closeObject
  | ',' => mark .comma
  | ':' => mark .colon
  | '"' => some ⟨.quoted ⟨[], true, none, .plain⟩, tokens⟩
  | _ =>
    if c == ' ' || c == '\t' || c == '\n' || c == '\r' then some ⟨.between, tokens⟩
    else if c == '-' || c.isDigit then some ⟨.numeral [c], tokens⟩
    else if c.isAlpha then some ⟨.word [c], tokens⟩
    else none

def Scanner.step (s : Scanner) (c : Char) : Option Scanner :=
  match s.scan with
  | .between => start s.tokens c
  | .word chars =>
    if c.isAlpha then some ⟨.word (c :: chars), s.tokens⟩
    else (wordToken? chars.reverse).bind fun t => start (t :: s.tokens) c
  | .numeral chars =>
    if isNumeral c then some ⟨.numeral (c :: chars), s.tokens⟩
    else (Numeral.read? chars.reverse).bind fun n => start (.number n :: s.tokens) c
  | .quoted q =>
    match q.step c with
    | some (.inl q) => some ⟨.quoted q, s.tokens⟩
    | some (.inr t) => some ⟨.between, t :: s.tokens⟩
    | none => none

def Scanner.stepBroken (s : Scanner) : Option Scanner :=
  match s.scan with
  | .quoted ⟨chars, _, _, .plain⟩ => some ⟨.quoted ⟨chars, false, none, .plain⟩, s.tokens⟩
  | _ => none

def Scanner.read (s : Scanner) : Option Char → Option Scanner
  | some c => s.step c
  | none => s.stepBroken

/-- The tokens of what a text or a byte string spells; none if it breaks off inside one or has a
character that begins none.  A blank at the end closes a word or a number. -/
def tokens? (cs : List (Option Char)) : Option (List Token) :=
  match (cs ++ [some ' ']).foldlM Scanner.read ⟨.between, []⟩ with
  | some ⟨.between, tokens⟩ => some tokens.reverse
  | _ => none

end Concordance.Json

import Concordance.CommandLine.Settings

/-!
Reading arguments from left to right.  A value or an operand is judged only when the next switch or
operand comes or the arguments end, and of several faults the first one judged is answered.  After
two dashes alone every argument is an operand.
-/

namespace Concordance.CommandLine

inductive Word where
  | dashes
  | long (name : String) (value : Option String)
  | short (letters : List Char)
  | plain (text : String)
  deriving DecidableEq, Repr

def Word.ofText (text : String) : Word :=
  match text.toList with
  | ['-', '-'] => .dashes
  | '-' :: '-' :: cs =>
    match cs.span (· != '=') with
    | (name, '=' :: value) => .long (String.ofList name) (some (String.ofList value))
    | (name, _) => .long (String.ofList name) none
  | '-' :: c :: cs => .short (c :: cs)
  | _ => .plain text

/-- What has been read but not judged. -/
inductive Pending where
  | nothing
  | switch (s : Switch)
  | value (s : Switch) (text : String)
  | operand (text : String)
  deriving DecidableEq, Repr

structure Reader where
  verb : Option Verb := none
  settings : Settings := {}
  given : List Switch := []
  operands : List String := []
  pending : Pending := .nothing
  verbatim : Bool := false

namespace Reader

def enter (r : Reader) (s : Switch) (text : String) : Except Refusal Reader :=
  if s.once && r.given.contains s then .error .repeated
  else do return { r with settings := ← r.settings.enter s text, given := s :: r.given }

def nextIsPath (r : Reader) : Bool := r.verb.any (·.pathAt r.operands.length)

def settle (r : Reader) : Except Refusal Reader :=
  match r.pending with
  | .nothing => .ok r
  | .switch _ => .error .noValue
  | .value s text => { r with pending := .nothing }.enter s text
  | .operand text =>
    if r.nextIsPath && text.isEmpty then .error .emptyPath
    else .ok { r with operands := r.operands ++ [text], pending := .nothing }

/-- Whether the next argument is the value of a switch, unless it begins with a dash. -/
def awaitsValue (r : Reader) : Bool :=
  match r.pending with
  | .switch _ => true
  | _ => false

def operandsRead (r : Reader) : Nat :=
  match r.pending with
  | .operand _ => r.operands.length + 1
  | _ => r.operands.length

/-- Why there is no room for an operand: ahead of a command it is no name of one, or it is one that
came too late. -/
def surplus (r : Reader) (text : String) : Refusal :=
  if r.verb.isSome then .unknownArgument
  else if r.verbatim && ((Verb.ofName? text).isSome || text == Switch.help.name) then
    .unknownArgument
  else .unknownCommand

def operand (r : Reader) (text : String) : Except Refusal Reader :=
  if r.verb.isSome && r.operandsRead < Verb.operandCount then do
    return { ← r.settle with pending := .operand text }
  else .error (r.surplus text)

def switch (r : Reader) (s : Switch) (value : Option String) : Except Refusal Reader := do
  let r ← r.settle
  match value with
  | some text => r.enter s text
  | none => if s.takesValue then return { r with pending := .switch s } else r.enter s ""

def long (r : Reader) (name : String) (value : Option String) : Except Refusal Reader :=
  match Switch.ofName? r.verb name with
  | none => .error .unknownArgument
  | some s => if value.isSome && !s.takesValue then .error .needlessValue else r.switch s value

/-- The value that follows a letter: nothing, or all the rest but one equals sign. -/
def attached : List Char → Option String
  | [] => none
  | '=' :: cs => some (String.ofList cs)
  | cs => some (String.ofList cs)

def short (r : Reader) : List Char → Except Refusal Reader
  | [] => .ok r
  | c :: cs =>
    match Switch.ofLetter? r.verb c with
    | none => .error .unknownArgument
    | some s =>
      if s.takesValue then r.switch s (attached cs)
      else do short (← r.switch s none) cs

def step (r : Reader) (text : String) : Except Refusal Reader :=
  if r.verbatim then r.operand text
  else match Word.ofText text with
    | .dashes => .ok { r with verbatim := true }
    | .long name value => r.long name value
    | .short letters => r.short letters
    | .plain text =>
      match r.pending with
      | .switch s => .ok { r with pending := .value s text }
      | _ => r.operand text

def readAfter (verb : Verb) (texts : List String) : Except Refusal (Settings × Command) := do
  let r ← (← texts.foldlM step { verb := some verb }).settle
  return (r.settings, ← r.settings.command verb r.operands)

def mayName (r : Reader) : Bool := !r.verbatim && !r.awaitsValue

def helpOn : List String → Refusal
  | [] => .help
  | [name] =>
    if (Verb.ofName? name).isSome || name == Switch.help.name then .help else .unknownCommand
  | _ => .unknownCommand

def readAhead (r : Reader) : List String → Except Refusal Request
  | [] => do
    let r ← r.settle
    .error (if r.given.isEmpty then .nothingAsked else .missingCommand)
  | text :: rest =>
    if r.mayName && text == Switch.help.name then .error (helpOn rest)
    else match (if r.mayName then Verb.ofName? text else none) with
      | some verb => do
        let (after, command) ← readAfter verb rest
        let ahead ← r.settle
        return ⟨Settings.style ahead.settings after, command⟩
      | none => do readAhead (← r.step text) rest

end Reader

def Request.ofArguments (texts : List String) : Except Refusal Request := Reader.readAhead {} texts

end Concordance.CommandLine

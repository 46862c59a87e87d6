/-!
Texts as bytes.  Every text has one encoding, and every other byte string has no text; what can be
read of it is still the characters in it, with the bytes between them that belong to none.
-/

namespace Concordance

def decodeText? (bytes : List UInt8) : Option String := String.fromUTF8? ⟨bytes.toArray⟩

def encodeText (s : String) : List UInt8 := s.toByteArray.toList

def firstChar? (bytes : List UInt8) : Option Char :=
  [1, 2, 3, 4].findSome? fun n => (decodeText? (bytes.take n)).bind (·.toList.head?)

/-- What bytes spell after the first `skip` of them: characters, and nothing for a byte that belongs
to no character. -/
def spellFrom : Nat → List UInt8 → List (Option Char)
  | _, [] => []
  | skip + 1, _ :: rest => spellFrom skip rest
  | 0, b :: rest =>
    match firstChar? (b :: rest) with
    | some c => some c :: spellFrom (c.utf8Size - 1) rest
    | none => none :: spellFrom 0 rest

def spellText (s : String) : List (Option Char) := s.toList.map some

def spell (bytes : List UInt8) : List (Option Char) :=
  match decodeText? bytes with
  | some s => spellText s
  | none => spellFrom 0 bytes

end Concordance

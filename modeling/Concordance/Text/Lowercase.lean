import Concordance.Text.Character

namespace Concordance

def lowerByTable (c : Char) : Option Char :=
  (lowercaseRuns.find? (·.covers c.toNat)).map fun run =>
    Char.ofNat ((c.toNat : Int) + run.shift).toNat

/-- The lowercase of a character on its own.  The dotted capital I alone becomes two characters. -/
def lowerChar (c : Char) : List Char :=
  if isAscii c then [c.toLower]
  else if c == 'İ' then ['i', '\u0307']
  else [(lowerByTable c).getD c]

def casedAhead (cs : List Char) : Bool :=
  match cs.dropWhile isCaseIgnorable with
  | [] => false
  | c :: _ => isCased c

def casedBehind (behind : Bool) (c : Char) : Bool :=
  if isCaseIgnorable c then behind else isCased c

/-- Lowercase of a text, given whether a cased letter lies behind it.  A capital sigma with a cased
letter behind it and none ahead ends a word. -/
def lowerFrom (behind : Bool) : List Char → List Char
  | [] => []
  | c :: rest =>
    (if c == 'Σ' then [if behind && !casedAhead rest then 'ς' else 'σ'] else lowerChar c) ++
      lowerFrom (casedBehind behind c) rest

def lowercase (s : String) : String :=
  String.ofList (lowerFrom false s.toList)

theorem toList_lowercase (s : String) : (lowercase s).toList = lowerFrom false s.toList := by
  simp [lowercase]

end Concordance

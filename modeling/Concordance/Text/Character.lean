import Concordance.Text.WordTable
import Concordance.Text.CaseTable

namespace Concordance

def isAscii (c : Char) : Bool := c.toNat < 0x80

/-- Letters, marks, decimal digits, connectors and joiners: what tokens are made of. -/
def isWord (c : Char) : Bool :=
  if isAscii c then c.isAlphanum || c == '_' else wordCodePoints.contains c

def isBlank (c : Char) : Bool :=
  let n := c.toNat
  (0x9 ≤ n && n ≤ 0xD) || n == 0x20 || n == 0x85 || n == 0xA0 || n == 0x1680 ||
    (0x2000 ≤ n && n ≤ 0x200A) || n == 0x2028 || n == 0x2029 || n == 0x202F || n == 0x205F ||
    n == 0x3000

def isCased (c : Char) : Bool :=
  if isAscii c then c.isAlpha else casedCodePoints.contains c

/-- A character that case rules look through.  In ASCII these are apostrophe, full stop, colon,
circumflex and grave accent. -/
def isCaseIgnorable (c : Char) : Bool :=
  if isAscii c then c == '\x27' || c == '.' || c == ':' || c == '^' || c == '\x60'
  else caseIgnorableCodePoints.contains c

theorem isWord_space : isWord ' ' = false := rfl

end Concordance

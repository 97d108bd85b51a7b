/-!
# Characters of a YAML text

The text has its line ends unified beforehand, so that a line feed, a next-line
character, a line separator or a paragraph separator breaks a line.
-/

namespace Flowchart.Yaml

/-- The byte order mark. It takes no column. -/
def byteOrderMark : Char := '\ufeff'

def isBreak (c : Char) : Bool := c == '\n' || c == '\u0085' || c == '\u2028' || c == '\u2029'

/-- The character that a line break leaves in a scalar. -/
def normalBreak (c : Char) : Char := if c == '\u2028' || c == '\u2029' then c else '\n'

/-- Blanks inside a line. -/
def isWhite (c : Char) : Bool := c == ' ' || c == '\t'

def startsWhite (cs : List Char) : Bool := cs.head?.any isWhite

/-- Whether nothing but the end, a blank or a line break comes next. -/
def endsWord : Option Char → Bool
  | none => true
  | some c => isWhite c || isBreak c

/-- Whether the end, a space or a line break comes next. -/
def endsField : Option Char → Bool
  | none => true
  | some c => c == ' ' || isBreak c

/-- The characters that may stand in a YAML text. -/
def isAllowed (c : Char) : Bool :=
  c == '\t' || c == '\n' || c == '\r' || c == '\u0085' ||
    (decide (0x20 ≤ c.toNat) && decide (c.toNat ≤ 0x7e)) ||
    (decide (0xa0 ≤ c.toNat) && decide (c.toNat ≤ 0xfffd)) || decide (0x10000 ≤ c.toNat)

/-- The characters of names: of anchors, tag handles and directives. -/
def isWordChar (c : Char) : Bool := c.isAlphanum || c == '-' || c == '_'

/-- Whether a document start or end mark stands here, at the start of a line. -/
def startsMark (mark : List Char) (cs : List Char) : Bool :=
  mark.isPrefixOf cs && endsWord (cs.drop mark.length).head?

def documentStart : List Char := ['-', '-', '-']

def documentEnd : List Char := ['.', '.', '.']

def startsDocumentMark (cs : List Char) : Bool :=
  startsMark documentStart cs || startsMark documentEnd cs

end Flowchart.Yaml

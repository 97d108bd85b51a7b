import Flowchart.Text.Quoted

/-!
# Code points

An escape in a text may name any code point, also a surrogate. A surrogate is
one half of a pair that encodes a character elsewhere; by itself it is no
character. A text that holds one can be compared and shown, but it cannot be
encoded, so no file has such a name or such a content.
-/

namespace Flowchart

namespace Text

/-- A code point: a character, or one of the `0x800` surrogates from `0xd800` on. -/
inductive CodePoint where
  | char (c : Char)
  | surrogate (i : Fin 0x800)
  deriving DecidableEq, Repr

namespace CodePoint

/-- The code point of a number below `0x110000`. -/
def ofNat (code : Nat) : CodePoint :=
  if h : 0xd800 ≤ code ∧ code < 0xe000 then .surrogate ⟨code - 0xd800, by omega⟩
  else .char (Char.ofNat code)

/-- The number of a surrogate. -/
def surrogateCode (i : Fin 0x800) : Nat := 0xd800 + i.val

def char? : CodePoint → Option Char
  | char c => some c
  | surrogate _ => none

def isSurrogate : CodePoint → Bool
  | char _ => false
  | surrogate _ => true

end CodePoint

end Text

/-- A text as a list of code points. Unlike a string it may hold surrogates. -/
abbrev RawText := List Text.CodePoint

namespace Text

def codePoints (cs : List Char) : RawText := cs.map .char

end Text

/-- A string as a text. -/
def RawText.ofString (s : String) : RawText := Text.codePoints s.toList

instance : Coe String RawText := ⟨RawText.ofString⟩

namespace Text

/-- The characters of a text, if it has no surrogates. -/
def chars? (ps : RawText) : Option (List Char) := ps.mapM CodePoint.char?

def hasSurrogate (ps : RawText) : Bool := ps.any CodePoint.isSurrogate

/-- One code point inside quotes `q`. -/
def quoteCodePoint (q : Char) : CodePoint → List Char
  | .char c => quoteChar q c
  | .surrogate i => '\\' :: 'u' :: hexPadded 4 (CodePoint.surrogateCode i)

/-- A text between quotes. -/
def quotedCodePoints (ps : RawText) : String :=
  let q := quoteFor (ps.filterMap CodePoint.char?)
  String.ofList (q :: ps.flatMap (quoteCodePoint q) ++ [q])

/-- A code point as it is printed: a surrogate by its number. -/
def printCodePoint : CodePoint → List Char
  | .char c => [c]
  | .surrogate i => '\\' :: 'u' :: hexPadded 4 (CodePoint.surrogateCode i)

/-- A text as it is printed. -/
def printed (ps : RawText) : String := String.ofList (ps.flatMap printCodePoint)

/-- What keeps a text from being encoded: its first surrogates in a row. -/
def encodingProblem (ps : RawText) : String :=
  let start := (ps.takeWhile (!·.isSurrogate)).length
  let row := (ps.drop start).takeWhile (·.isSurrogate)
  let place :=
    match row with
    | [p] => s!"character '{String.ofList (printCodePoint p)}' in position {start}"
    | _ => s!"characters in position {start}-{start + row.length - 1}"
  s!"'utf-8' codec can't encode {place}: surrogates not allowed"

end Text

end Flowchart

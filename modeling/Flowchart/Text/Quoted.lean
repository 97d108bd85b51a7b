import Flowchart.Text.Printable

/-!
# Quoted text

Messages show a text between quotes: single ones, or double ones when the text
holds a single quote and no double one. Backslashes and the quote in use are
escaped, and so is every character without a visible form.
-/

namespace Flowchart.Text

/-- A number in lower-case hexadecimal, padded with zeros to a width. -/
def hexPadded (width n : Nat) : List Char :=
  let digits := Nat.toDigits 16 n
  List.replicate (width - digits.length) '0' ++ digits

/-- One character inside quotes `q`. -/
def quoteChar (q c : Char) : List Char :=
  if c == q || c == '\\' then ['\\', c]
  else if c == '\n' then ['\\', 'n']
  else if c == '\r' then ['\\', 'r']
  else if c == '\t' then ['\\', 't']
  else if isPrintable c then [c]
  else if c.toNat < 0x100 then '\\' :: 'x' :: hexPadded 2 c.toNat
  else if c.toNat < 0x10000 then '\\' :: 'u' :: hexPadded 4 c.toNat
  else '\\' :: 'U' :: hexPadded 8 c.toNat

/-- The quote that a text is shown in. -/
def quoteFor (cs : List Char) : Char :=
  if cs.contains '\'' && !cs.contains '"' then '"' else '\''

def quotedChars (cs : List Char) : List Char :=
  let q := quoteFor cs
  q :: cs.flatMap (quoteChar q) ++ [q]

/-- A text between quotes. -/
def quoted (s : String) : String := String.ofList (quotedChars s.toList)

/-- A single byte inside quotes `q`: ASCII as text, everything else in hexadecimal. -/
def quoteByte (q : Char) (b : UInt8) : List Char :=
  let c := Char.ofNat b.toNat
  if c == q || c == '\\' then ['\\', c]
  else if c == '\n' then ['\\', 'n']
  else if c == '\r' then ['\\', 'r']
  else if c == '\t' then ['\\', 't']
  else if 0x20 ≤ b.toNat && b.toNat < 0x7f then [c]
  else '\\' :: 'x' :: hexPadded 2 b.toNat

/-- A byte string between quotes, marked with a leading `b`. -/
def quotedBytes (bs : List UInt8) : String :=
  let q := quoteFor (bs.map fun b => Char.ofNat b.toNat)
  String.ofList ('b' :: q :: bs.flatMap (quoteByte q) ++ [q])

end Flowchart.Text

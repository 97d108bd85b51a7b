/-!
# Decimal digits and blanks of all scripts

Number texts may be written with the decimal digits of any script, and may be
set off by blanks of any kind.
-/

namespace Flowchart.Text

/-- The code points of the zeros; the nine other digits of a script follow its zero. -/
def zeros : List Nat :=
  [0x30, 0x660, 0x6f0, 0x7c0, 0x966, 0x9e6, 0xa66, 0xae6, 0xb66, 0xbe6, 0xc66, 0xce6, 0xd66, 0xde6,
   0xe50, 0xed0, 0xf20, 0x1040, 0x1090, 0x17e0, 0x1810, 0x1946, 0x19d0, 0x1a80, 0x1a90, 0x1b50,
   0x1bb0, 0x1c40, 0x1c50, 0xa620, 0xa8d0, 0xa900, 0xa9d0, 0xa9f0, 0xaa50, 0xabf0, 0xff10, 0x104a0,
   0x10d30, 0x11066, 0x110f0, 0x11136, 0x111d0, 0x112f0, 0x11450, 0x114d0, 0x11650, 0x116c0,
   0x11730, 0x118e0, 0x11950, 0x11c50, 0x11d50, 0x11da0, 0x16a60, 0x16ac0, 0x16b50, 0x1d7ce,
   0x1d7d8, 0x1d7e2, 0x1d7ec, 0x1d7f6, 0x1e140, 0x1e2f0, 0x1e950, 0x1fbf0]

/-- The value of a decimal digit. -/
def digit? (c : Char) : Option Nat :=
  (zeros.find? fun z => decide (z ≤ c.toNat) && decide (c.toNat ≤ z + 9)).map (c.toNat - ·)

/-- The blanks of ASCII. -/
def isAsciiBlank (c : Char) : Bool :=
  c == ' ' || (decide (0x09 ≤ c.toNat) && decide (c.toNat ≤ 0x0d))

/-- The blanks beyond ASCII. -/
def isWideBlank (c : Char) : Bool :=
  [0x85, 0xa0, 0x1680, 0x2028, 0x2029, 0x202f, 0x205f, 0x3000].contains c.toNat ||
    (decide (0x2000 ≤ c.toNat) && decide (c.toNat ≤ 0x200a))

def isSpace (c : Char) : Bool := isAsciiBlank c || isWideBlank c

/-- Drops what satisfies `p` from both ends. -/
def trimBoth (p : Char → Bool) (cs : List Char) : List Char :=
  ((cs.dropWhile p).reverse.dropWhile p).reverse

/-- A number text in ASCII: digits of other scripts and wide blanks become plain ones. -/
def toPlain (cs : List Char) : List Char :=
  cs.map fun c =>
    if c.toNat < 127 then c
    else if isWideBlank c then ' '
    else
      match digit? c with
      | some d => Char.ofNat ('0'.toNat + d)
      | none => c

end Flowchart.Text

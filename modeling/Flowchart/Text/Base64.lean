/-!
# Base64

Bytes written with sixty-four letters. Characters outside the alphabet are
passed over; padding ends the data.
-/

namespace Flowchart.Text

/-- The value of a letter. -/
def base64Digit? (c : Char) : Option Nat :=
  if 'A' ≤ c && c ≤ 'Z' then some (c.toNat - 'A'.toNat)
  else if 'a' ≤ c && c ≤ 'z' then some (c.toNat - 'a'.toNat + 26)
  else if c.isDigit then some (c.toNat - '0'.toNat + 52)
  else if c == '+' then some 62
  else if c == '/' then some 63
  else none

/-- Reads letters: `phase` of them stand in the group that is open, `left` are the bits not yet
written, and `pads` is the number of pad characters just read. An open group at the end is
refused unless it is padded. -/
def base64From (phase left pads : Nat) : List Char → Option (List UInt8)
  | [] => if phase = 0 then some [] else none
  | c :: cs =>
    if c == '=' then
      if 2 ≤ phase && 4 ≤ phase + pads + 1 then some []
      else base64From phase left (if 2 ≤ phase then pads + 1 else pads) cs
    else
      match base64Digit? c with
      | none => base64From phase left pads cs
      | some d =>
        match phase with
        | 0 => base64From 1 d 0 cs
        | 1 => (base64From 2 (d % 16) 0 cs).map ((left * 4 + d / 16).toUInt8 :: ·)
        | 2 => (base64From 3 (d % 4) 0 cs).map ((left * 16 + d / 4).toUInt8 :: ·)
        | _ => (base64From 0 0 0 cs).map ((left * 64 + d).toUInt8 :: ·)

def decodeBase64? (cs : List Char) : Option (List UInt8) := base64From 0 0 0 cs

end Flowchart.Text

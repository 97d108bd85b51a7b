import Flowchart.Number.Binary
import Flowchart.Text.Digit
import Flowchart.Text.Quoted

/-!
# Number texts

Whole numbers are read in a base, with an optional sign, blanks around, and
single underscores between digits; floating-point numbers in decimal, with the
words for infinity and not-a-number.
-/

namespace Flowchart.Number

open Flowchart.Text

/-- Why a text is not read as a number. The text is kept as it is shown, between quotes. -/
inductive LiteralFault where
  | notWhole (base : Nat) (shown : String)
  | tooLong (digits : Nat)
  | notDecimal (shown : String)
  deriving DecidableEq, Repr

/-- The most decimal digits that a whole number may have. -/
def maxDigits : Nat := 4300

/-- Long texts are cut in the message. -/
def LiteralFault.message : LiteralFault → String
  | notWhole base shown =>
    s!"invalid literal for int() with base {base}: " ++ String.ofList (shown.toList.take 200)
  | tooLong digits =>
    s!"Exceeds the limit ({maxDigits} digits) for integer string conversion: " ++
      s!"value has {digits} digits; use sys.set_int_max_str_digits() to increase the limit"
  | notDecimal shown => "could not convert string to float: " ++ shown

/-- The value of a digit in bases up to thirty-six. -/
def baseDigit? (base : Nat) (c : Char) : Option Nat :=
  let v? :=
    if c.isDigit then some (c.toNat - '0'.toNat)
    else if c.isLower then some (c.toNat - 'a'.toNat + 10)
    else if c.isUpper then some (c.toNat - 'A'.toNat + 10)
    else none
  v?.filter (· < base)

/-- Digits with single underscores between them. -/
def underscored? (isDigit : Char → Bool) : List Char → Option (List Char)
  | [] => none
  | [c] => if isDigit c then some [c] else none
  | c :: '_' :: cs => if isDigit c then (underscored? isDigit cs).map (c :: ·) else none
  | c :: cs => if isDigit c then (underscored? isDigit cs).map (c :: ·) else none

/-- A sign in front. -/
def splitSign : List Char → Bool × List Char
  | '-' :: cs => (true, cs)
  | '+' :: cs => (false, cs)
  | cs => (false, cs)

/-- The mark of a base in front of the digits, and the underscore that may follow it. -/
def dropBaseMark (base : Nat) : List Char → List Char
  | '0' :: m :: cs =>
    let marks := if base = 16 then ['x', 'X'] else if base = 8 then ['o', 'O']
      else if base = 2 then ['b', 'B'] else []
    if marks.contains m then
      match cs with
      | '_' :: r => r
      | r => r
    else '0' :: m :: cs
  | cs => cs

/-- The value of digits in a base. -/
def ofDigits (base : Nat) (cs : List Char) : Nat :=
  cs.foldl (fun n c => n * base + (baseDigit? base c).getD 0) 0

/-- Reads a whole number. -/
def readWhole (base : Nat) (text : String) : Except LiteralFault Int :=
  let (negative, body) := splitSign (trimBoth isAsciiBlank (toPlain text.toList))
  match underscored? (fun c => (baseDigit? base c).isSome) (dropBaseMark base body) with
  | none => .error (.notWhole base (quoted text))
  | some digits =>
    if base = 10 && maxDigits < digits.length then .error (.tooLong digits.length)
    else
      let n := ofDigits base digits
      .ok (if negative then -(n : Int) else n)

/-- The digits of an optional part: nothing, or digits with underscores. -/
def optionalDigits? (cs : List Char) : Option (List Char) :=
  if cs.isEmpty then some [] else underscored? Char.isDigit cs

/-- An unsigned decimal: digits on at least one side of the point, and maybe an exponent. -/
def decimal? (cs : List Char) : Option Float := do
  let isMark := fun c : Char => c == 'e' || c == 'E'
  let head := cs.takeWhile (!isMark ·)
  let whole ← optionalDigits? (head.takeWhile (· != '.'))
  let fraction ← optionalDigits? ((head.dropWhile (· != '.')).drop 1)
  if whole.isEmpty && fraction.isEmpty then none
  let exponent ← match cs.dropWhile (!isMark ·) with
    | [] => some (0 : Int)
    | _ :: tail => do
      let (negative, digits) := splitSign tail
      let digits ← underscored? Char.isDigit digits
      let n := ofDigits 10 digits
      some (if negative then -(n : Int) else n)
  return ofDecimal (ofDigits 10 (whole ++ fraction)) (exponent - fraction.length)

/-- Reads a floating-point number. -/
def readFloat (text : String) : Except LiteralFault Float :=
  let (negative, body) := splitSign (trimBoth isAsciiBlank (toPlain text.toList))
  let word := String.ofList (body.map Char.toLower)
  let x? :=
    if word == "inf" || word == "infinity" then some (1.0 / 0.0)
    else if word == "nan" then some (0.0 / 0.0)
    else decimal? body
  match x? with
  | some x => .ok (if negative then -x else x)
  | none => .error (.notDecimal (quoted text))

end Flowchart.Number

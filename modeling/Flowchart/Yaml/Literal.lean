import Flowchart.Text.Base64
import Flowchart.Text.LowerCase
import Flowchart.Value
import Flowchart.Yaml.Fault
import Flowchart.Yaml.Tag

/-!
# Values of scalars

A tag says what kind of value a scalar has; here the value is read from its
text. A text that the tag does not fit is a fault.
-/

namespace Flowchart.Yaml

open Flowchart.Text

/-! ## Numbers -/

/-- A text that is read as a number if it has no surrogates, and is none otherwise. -/
def readChars {α : Type} (read : String → Except Number.LiteralFault α)
    (fault : String → Number.LiteralFault) (ps : List CodePoint) : Except Fault α :=
  match chars? ps with
  | some cs => (read (String.ofList cs)).mapError .number
  | none => .error (.number (fault (quotedCodePoints ps)))

def wholeOf (base : Nat) : List CodePoint → Except Fault Int :=
  readChars (Number.readWhole base) (.notWhole base)

def floatOf : List CodePoint → Except Fault Float := readChars Number.readFloat .notDecimal

/-- A text without its underscores. -/
def dropUnderscores (ps : List CodePoint) : List CodePoint := ps.filter (· != .char '_')

/-- A sign in front. -/
def splitSign : List CodePoint → Bool × List CodePoint
  | .char '-' :: ps => (true, ps)
  | .char '+' :: ps => (false, ps)
  | ps => (false, ps)

/-- The parts of a number in base sixty. -/
def parts (ps : List CodePoint) : List (List CodePoint) := ps.splitOn (.char ':')

/-- A number in base sixty from its parts. -/
def ofSixtieths (digits : List Int) : Int := digits.foldl (fun n d => n * 60 + d) 0

/-- A whole number in one of the notations of the format. -/
def intOfText (text : List CodePoint) : Except Fault Int := do
  let ps := dropUnderscores text
  if ps.isEmpty then .error .emptyNumber
  let (negative, body) := splitSign ps
  let n ←
    match body with
    | [] => .error .emptyNumber
    | [.char '0'] => .ok 0
    | .char '0' :: .char 'b' :: ps => wholeOf 2 ps
    | .char '0' :: .char 'x' :: ps => wholeOf 16 ps
    | .char '0' :: _ => wholeOf 8 body
    | _ =>
      if body.contains (.char ':') then ((parts body).mapM (wholeOf 10)).map ofSixtieths
      else wholeOf 10 body
  return if negative then -n else n

/-- Adds up the parts of a number in base sixty, the last one first. `weight` is what the next
part counts, and the sum is rounded after every part. -/
def sumSixtieths (weight : Nat) (sum : Float) : List Float → Except Fault Float
  | [] => .ok sum
  | d :: ds =>
    let factor := Number.ofDecimal weight 0
    if factor.isInf then .error .tooManyParts
    else sumSixtieths (weight * 60) (sum + d * factor) ds

/-- The word for not-a-number. -/
def nanWord : List CodePoint := codePoints ['.', 'n', 'a', 'n']

def infinityWord : List CodePoint := codePoints ['.', 'i', 'n', 'f']

/-- The sign of a floating-point number, and its text in lower case without the sign. -/
def floatBody (text : List CodePoint) : Bool × List CodePoint :=
  splitSign (lower (dropUnderscores text))

/-- A floating-point number in one of the notations of the format. -/
def floatOfText (text : List CodePoint) : Except Fault Float := do
  if (dropUnderscores text).isEmpty then .error .emptyNumber
  let (negative, body) := floatBody text
  let signed (x : Float) : Float := if negative then -x else x
  if body == infinityWord then return signed (1.0 / 0.0)
  else if body == nanWord then return 0.0 / 0.0
  else if body.contains (.char ':') then
    return signed (← sumSixtieths 1 0.0 (← (parts body).mapM floatOf).reverse)
  else return signed (← floatOf body)

/-! ## Truth values -/

def boolOfText (text : List CodePoint) : Except Fault Bool :=
  let word := lower text
  let isOne (words : List String) : Bool := words.any fun w => codePoints w.toList == word
  if isOne ["yes", "true", "on"] then .ok true
  else if isOne ["no", "false", "off"] then .ok false
  else .error (.unknownBool (quotedCodePoints word))

/-! ## Dates and times -/

def isLeap (year : Nat) : Bool := year % 4 == 0 && (year % 100 != 0 || year % 400 == 0)

def daysInMonth (year month : Nat) : Nat :=
  if month = 2 then (if isLeap year then 29 else 28)
  else if month = 4 || month = 6 || month = 9 || month = 11 then 30 else 31

def dateOf (year month day : Nat) : Except CalendarFault Date :=
  if year = 0 then .error (.year year)
  else if month = 0 || 12 < month then .error .month
  else if day = 0 || daysInMonth year month < day then .error .day
  else .ok ⟨year, month, day⟩

/-- The first six digits of a fraction, as microseconds. -/
def microseconds (digits : List Char) : Nat :=
  Number.ofDigits 10 ((digits ++ List.replicate 6 '0').take 6)

/-- The date or the time that is written. -/
def WrittenTime.value (t : WrittenTime) : Except CalendarFault Value :=
  match t.clock? with
  | none => (dateOf t.year t.month t.day).map .date
  | some ((hour, minute, second), fraction, offset?) => do
    match offset? with
    | some n => if 86400 ≤ n.natAbs then .error (.offset n)
    | none => pure ()
    let date ← dateOf t.year t.month t.day
    if 24 ≤ hour then .error .hour
    if 60 ≤ minute then .error .minute
    if 60 ≤ second then .error .second
    return .moment ⟨date, hour, minute, second, microseconds fraction, offset?⟩

/-- A date or a time; a line feed at its end does not count. -/
def timeOfText (text : List CodePoint) : Except Fault Value :=
  match (chars? text).bind fun cs => readTime? (dropLineEnd (String.ofList cs)) with
  | none => .error .noTimestamp
  | some t => t.value.mapError .calendar

/-! ## Bytes -/

def bytesOfText (text : List CodePoint) : Except Fault Value :=
  match chars? text with
  | none => .error .malformed
  | some cs =>
    if cs.all (·.toNat < 128) then
      match decodeBase64? cs with
      | some bs => .ok (.bytes bs)
      | none => .error .malformed
    else .error .malformed

end Flowchart.Yaml

import Flowchart.Number.Literal
import Flowchart.Schema.Fault
import Flowchart.Schema.Shown
import Flowchart.Text.Utf8
import Flowchart.Value

/-!
# Coercions

A schema reads more than values of the very type it wants: texts and numbers
that stand for a truth value, texts and fractions that stand for a whole
number. What it does not read it names as a problem.
-/

namespace Flowchart.Schema

open Flowchart.Text

/-- The numbers that fit into 64 bits with a sign. -/
def fitsWord (n : Int) : Bool :=
  decide (-0x8000000000000000 ≤ n) && decide (n < 0x8000000000000000)

/-- The whole number that a floating-point number is, if it lies strictly inside that range. -/
def wordOfFloat? (x : Float) : Option Int :=
  (Number.Exact.ofFloat x).toInt?.filter fun n =>
    decide (-0x8000000000000000 < n) && decide (n < 0x8000000000000000)

/-- The words for false and true, whatever their case. -/
def boolOfWord (s : String) : Except Problem Bool :=
  let word := String.ofList (s.toList.map Char.toLower)
  if ["0", "off", "f", "false", "n", "no"].contains word then .ok false
  else if ["1", "on", "t", "true", "y", "yes"].contains word then .ok true
  else .error .unclearBool

def boolOfInt (n : Int) : Except Problem Bool :=
  if n = 0 then .ok false else if n = 1 then .ok true else .error .unclearBool

/-- A text as a string, which has no surrogates. -/
def asString (s : RawText) : Except Problem String :=
  match chars? s with
  | some cs => .ok (String.ofList cs)
  | none => .error .textNotUnicode

/-- A truth value. Numbers beyond 64 bits and fractions are of the wrong type. -/
def asBool : Value → Except Problem Bool
  | .bool b => .ok b
  | .int n => if fitsWord n then boolOfInt n else .error .notBool
  | .float x =>
    match wordOfFloat? x with
    | some n => boolOfInt n
    | none => .error .notBool
  | .str s => asString s >>= boolOfWord
  | .bytes bs =>
    match decodeUtf8 bs with
    | .ok cs => boolOfWord (String.ofList cs)
    | .error _ => .error .unclearBool
  | _ => .error .notBool

/-- A text, also one with surrogates; bytes count as the text that they encode. -/
def asText : Value → Except Problem RawText
  | .str s => .ok s
  | .bytes bs =>
    match decodeUtf8 bs with
    | .ok cs => .ok (codePoints cs)
    | .error _ => .error .textNotUnicode
  | _ => .error .notText

/-- A whole number in its plain form: maybe a minus sign, then digits of which the first is no
zero, or a single zero. -/
def plainInt (cs : List Char) : Except Problem Int :=
  let (negative, body) :=
    match cs with
    | '-' :: rest => (true, rest)
    | _ => (false, cs)
  match body with
  | ['0'] => .ok 0
  | '0' :: _ => .error .unclearInt
  | _ =>
    let digits := body.takeWhile Char.isDigit
    if Number.maxDigits < digits.length then .error .longInt
    else if digits.isEmpty || digits.length < body.length then .error .unclearInt
    else
      let n := Number.ofDigits 10 digits
      .ok (if negative then -(n : Int) else n)

/-- Skips the zeros and underscores after a first zero, which is `last` at the start. A digit or
a sign ends them; one zero is kept before a point, and one character at the end. -/
def skipZeros? (last : Char) : List Char → Option (List Char)
  | [] => some [last]
  | c :: cs =>
    if c == '0' || c == '_' then skipZeros? c cs
    else if c.isDigit || c == '-' then some (c :: cs)
    else if c == '.' then some (last :: c :: cs)
    else none

/-- Drops leading zeros. There has to be a digit in front. -/
def dropZeros? : List Char → Option (List Char)
  | '0' :: cs => skipZeros? '0' cs
  | c :: cs => if c.isDigit then some (c :: cs) else none
  | [] => none

/-- Drops a point with nothing but zeros behind it. -/
def dropPoint (cs : List Char) : List Char :=
  if ((cs.dropWhile (· != '.')).drop 1).all (· == '0') then cs.takeWhile (· != '.') else cs

def hasDoubleUnderscore : List Char → Bool
  | '_' :: '_' :: _ => true
  | _ :: cs => hasDoubleUnderscore cs
  | [] => false

/-- Drops underscores if each of them stands alone and neither at the start nor at the end. -/
def dropUnderscores (cs : List Char) : List Char :=
  if cs.head? == some '_' || cs.getLast? == some '_' || hasDoubleUnderscore cs then cs
  else cs.filter (· != '_')

/-- The plain form of a whole number with blanks around, a sign, leading zeros, underscores, or
a point and zeros at the end. -/
def plainForm? (cs : List Char) : Option (List Char) :=
  let body? :=
    match trimBoth isSpace cs with
    | '-' :: rest => (dropZeros? rest).map ('-' :: ·)
    | '+' :: rest => dropZeros? rest
    | cs => dropZeros? cs
  body?.map fun cs => dropUnderscores (dropPoint cs)

/-- A whole number in a text. Only the plain form itself is told to be too long. -/
def intOfText (s : String) : Except Problem Int :=
  match plainInt s.toList with
  | .ok n => .ok n
  | .error .longInt => .error .longInt
  | .error _ =>
    match plainForm? s.toList with
    | none => .error .unclearInt
    | some cs => (plainInt cs).mapError fun _ => .unclearInt

/-- A whole number. -/
def asInt : Value → Except Problem Int
  | .int n => .ok n
  | .bool b => .ok (if b then 1 else 0)
  | .float x =>
    match Number.Exact.ofFloat x with
    | .finite negative m e =>
      match (Number.Exact.finite negative m e).toInt?, wordOfFloat? x with
      | none, _ => .error .fractionalInt
      | _, some n => .ok n
      | _, none => .error .longInt
    | _ => .error .infiniteInt
  | .str s => asString s >>= intOfText
  | .bytes bs =>
    match decodeUtf8 bs with
    | .ok cs => intOfText (String.ofList cs)
    | .error _ => .error .unclearInt
  | _ => .error .notInt

/-- One of the named choices. -/
def asChoice {α : Type} (choices : List α) (name : α → String) (v : Value) : Except Problem α :=
  match v with
  | .str s => do
    let word ← asString s
    match choices.find? (name · == word) with
    | some a => .ok a
    | none => .error (.notOneOf (choices.map name))
  | _ => .error (.notOneOf (choices.map name))

/-! ## Entries -/

/-- The value under a textual key. -/
def lookup? (entries : List (Value × Value)) (key : RawText) : Option Value :=
  match entries with
  | [] => none
  | (.str k, v) :: rest => if k = key then some v else lookup? rest key
  | _ :: rest => lookup? rest key

/-- A field that must be there. -/
def required {α : Type} (entries : List (Value × Value)) (key : RawText)
    (check : Value → Checked α) : Checked α :=
  within (.key key) <|
    match lookup? entries key with
    | none => .error [⟨[], .missing⟩]
    | some v => check v

/-- A key as a step: whole numbers by their value, everything else that is no text as shown. -/
def keyStep : Value → Step
  | .str s => .key s
  | .bool b => .index (if b then 1 else 0)
  | .int n => if fitsWord n then .index n else .key (showInt n)
  | v => .key v.shown

/-- The faults of keys: those that are no text, and those that are not permitted. -/
def keyFaults (permits : RawText → Bool) : List (Value × Value) → List Fault
  | [] => []
  | (.str s, _) :: rest =>
    if permits s then keyFaults permits rest else ⟨[.key s], .extra⟩ :: keyFaults permits rest
  | (k, _) :: rest => ⟨[keyStep k], .keyNotText⟩ :: keyFaults permits rest

/-- A key with a surrogate. -/
def isBrokenKey : Value → Bool
  | .str s => hasSurrogate s
  | _ => false

/-- A check of entries by their keys. A key with a surrogate hides all other faults. -/
def withKeys {α : Type} (entries : List (Value × Value)) (c : Checked α) : Checked α :=
  if entries.any fun e => isBrokenKey e.1 then .error [⟨[], .textNotUnicode⟩] else c

end Flowchart.Schema

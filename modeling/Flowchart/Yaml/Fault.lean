import Flowchart.Number.Literal
import Flowchart.Schema.Shown

/-!
# Faults of a YAML text

A text that breaks the grammar is malformed, and so is one whose tags, keys or
aliases make no sense. A scalar that its tag promises to be a number, a truth
value or a date, and that is none, is a fault of its own.
-/

namespace Flowchart.Yaml

/-- Why a date or a time does not exist. -/
inductive CalendarFault where
  | year (n : Nat)
  | month
  | day
  | hour
  | minute
  | second
  | offset (seconds : Int)
  deriving DecidableEq, Repr

def CalendarFault.message : CalendarFault → String
  | year n => s!"year {n} is out of range"
  | month => "month must be in 1..12"
  | day => "day is out of range for month"
  | hour => "hour must be in 0..23"
  | minute => "minute must be in 0..59"
  | second => "second must be in 0..59"
  | offset seconds =>
    "offset must be a timedelta strictly between -timedelta(hours=24) and " ++
      "timedelta(hours=24), not " ++ showSpan seconds ++ "."

inductive Fault where
  /-- The text is no YAML document, or not a single one. -/
  | malformed
  /-- Collections are nested too deep. -/
  | tooDeep
  /-- An escape names a code beyond the last character. -/
  | noCharacter (code : Nat)
  | number (f : Number.LiteralFault)
  /-- A number without any character. -/
  | emptyNumber
  /-- A number in base sixty with too many parts for a floating-point number. -/
  | tooManyParts
  /-- A word that is no truth value, as it is shown. -/
  | unknownBool (shown : String)
  | noTimestamp
  /-- A timestamp that is no scalar itself. -/
  | timestampInMapping
  | calendar (f : CalendarFault)
  /-- A text that is the value of a mapping and in the end stands for itself. -/
  | endlessText
  deriving DecidableEq, Repr

/-- Codes of 32 bits do not even fit a machine integer. -/
def Fault.message : Fault → String
  | malformed => "malformed YAML"
  | tooDeep => "maximum recursion depth exceeded"
  | noCharacter code =>
    if code < 0x80000000 then "chr() arg not in range(0x110000)"
    else "Python int too large to convert to C int"
  | number f => f.message
  | emptyNumber => "string index out of range"
  | tooManyParts => "int too large to convert to float"
  | unknownBool shown => shown
  | noTimestamp => "'NoneType' object has no attribute 'groupdict'"
  | timestampInMapping => "expected string or bytes-like object, got 'list'"
  | calendar f => f.message
  | endlessText => "maximum recursion depth exceeded"

end Flowchart.Yaml

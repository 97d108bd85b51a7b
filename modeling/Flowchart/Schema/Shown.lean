import Flowchart.Number.Literal
import Flowchart.Number.Shortest
import Flowchart.Value

/-!
# Keys in messages

A mapping may have keys that are no text. A message names such a key by the
number it is, or by the way it is shown.
-/

namespace Flowchart

/-- Seconds as days and seconds of a day. -/
def showSpan (seconds : Int) : String :=
  let days := seconds.fdiv 86400
  let rest := seconds.fmod 86400
  let parts :=
    (if days = 0 then [] else [s!"days={days}"]) ++
      (if rest = 0 then [] else [s!"seconds={rest}"])
  "datetime.timedelta(" ++ (if parts.isEmpty then "0" else ", ".intercalate parts) ++ ")"

def Date.shown (d : Date) : String := s!"datetime.date({d.year}, {d.month}, {d.day})"

/-- Seconds are left out when they and the microseconds are zero. -/
def Moment.shown (m : Moment) : String :=
  let clock :=
    [m.date.year, m.date.month, m.date.day, m.hour, m.minute] ++
      (if m.microsecond ≠ 0 then [m.second, m.microsecond]
        else if m.second ≠ 0 then [m.second] else [])
  let zone :=
    match m.offset? with
    | none => []
    | some 0 => ["tzinfo=datetime.timezone.utc"]
    | some n => ["tzinfo=datetime.timezone(" ++ showSpan n ++ ")"]
  "datetime.datetime(" ++ ", ".intercalate (clock.map toString ++ zone) ++ ")"

/-- A whole number, unless it has too many digits to be shown. -/
def showInt (n : Int) : String :=
  if Number.maxDigits < (toString n.natAbs).length then "<unprintable int object>" else toString n

mutual

/-- A value as it is shown in messages. -/
def Value.shown : Value → String
  | .null => "None"
  | .bool b => if b then "True" else "False"
  | .int n => showInt n
  | .float x => Number.showFloat x
  | .str s => Text.quotedCodePoints s
  | .bytes bs => Text.quotedBytes bs
  | .date d => d.shown
  | .moment m => m.shown
  | .list items => "[" ++ ", ".intercalate (showItems items) ++ "]"
  | .set items =>
    if items.isEmpty then "set()" else "\x7b" ++ ", ".intercalate (showItems items) ++ "\x7d"
  | .map entries => "\x7b" ++ ", ".intercalate (showEntries entries) ++ "\x7d"

def showItems : List Value → List String
  | [] => []
  | v :: vs => v.shown :: showItems vs

def showEntries : List (Value × Value) → List String
  | [] => []
  | (k, v) :: rest => (k.shown ++ ": " ++ v.shown) :: showEntries rest

end

end Flowchart

import Flowchart.Text.CodePoint

/-!
# Dynamic values

The values that settings files and structured data are made of, before a
schema has looked at them.
-/

namespace Flowchart

/-- A day of the calendar. -/
structure Date where
  year : Nat
  month : Nat
  day : Nat
  deriving DecidableEq, Repr

/-- A time on a day; `offset?` is the distance from universal time in seconds, if given. -/
structure Moment where
  date : Date
  hour : Nat
  minute : Nat
  second : Nat
  microsecond : Nat
  offset? : Option Int
  deriving DecidableEq, Repr

/-- A dynamic value. A mapping keeps its entries in the order in which they were given. -/
inductive Value where
  | null
  | bool (b : Bool)
  | int (n : Int)
  | float (x : Float)
  | str (s : RawText)
  | bytes (bs : List UInt8)
  | date (d : Date)
  | moment (m : Moment)
  | list (items : List Value)
  | set (items : List Value)
  | map (entries : List (Value × Value))
  deriving Repr, Inhabited

end Flowchart

import Flowchart.Number.Literal
import Flowchart.Text.CodePoint

/-!
# Tags and the meaning of plain scalars

A node without a tag gets one from its form. A plain scalar is a truth value,
a number, a date or nothing when it is spelled like one, and text otherwise.
-/

namespace Flowchart.Yaml

/-- The tags with a meaning of their own, and all others. -/
inductive Tag where
  | null
  | bool
  | int
  | float
  | str
  | binary
  | timestamp
  | seq
  | map
  | set
  | omap
  | pairs
  | merge
  | value
  | other (text : String)
  deriving DecidableEq, Repr

def standardTags : List (String × Tag) :=
  [("null", .null), ("bool", .bool), ("int", .int), ("float", .float), ("str", .str),
   ("binary", .binary), ("timestamp", .timestamp), ("seq", .seq), ("map", .map), ("set", .set),
   ("omap", .omap), ("pairs", .pairs), ("merge", .merge), ("value", .value)]

/-- What the standard tags start with. -/
def standardNamespace : String := "tag:yaml.org,2002:"

def Tag.ofText (text : String) : Tag :=
  match standardTags.find? fun t => standardNamespace ++ t.1 == text with
  | some t => t.2
  | none => .other text

/-! ## Spellings -/

def isNullWord (s : String) : Bool := ["", "~", "null", "Null", "NULL"].contains s

/-- The words for truth values, in lower case, capitalized or in upper case. -/
def isBoolWord (s : String) : Bool :=
  ["yes", "Yes", "YES", "no", "No", "NO", "true", "True", "TRUE", "false", "False", "FALSE",
   "on", "On", "ON", "off", "Off", "OFF"].contains s

/-- A nonempty run of the given characters. -/
def isRun (p : Char → Bool) (cs : List Char) : Bool := !cs.isEmpty && cs.all p

def isDigitOr_ (c : Char) : Bool := c.isDigit || c == '_'

/-- A part of a number in base sixty: one digit, or two with the first below six. -/
def isSixtieth : List Char → Bool
  | [a] => a.isDigit
  | [a, b] => a.isDigit && decide (a ≤ '5') && b.isDigit
  | _ => false

/-- Parts in base sixty, each after a colon; at least one. -/
def isSixtieths (cs : List Char) : Bool :=
  match cs with
  | ':' :: rest => (rest.splitOn ':').all isSixtieth
  | _ => false

/-- A digit out of `first`, then digits and underscores, then what `tail` accepts. -/
def isNumberWith (first : Char → Bool) (tail : List Char → Bool) : List Char → Bool
  | [] => false
  | c :: cs => first c && tail (cs.dropWhile isDigitOr_)

def isNonzeroDigit (c : Char) : Bool := c.isDigit && c != '0'

def isHexOr_ (c : Char) : Bool := (Number.baseDigit? 16 c).isSome || c == '_'

/-- A whole number: binary, octal, decimal, hexadecimal, or in base sixty. -/
def isIntWord (s : String) : Bool :=
  let body := (Number.splitSign s.toList).2
  match body with
  | ['0'] => true
  | '0' :: 'b' :: cs => isRun (fun c => c == '0' || c == '1' || c == '_') cs
  | '0' :: 'x' :: cs => isRun isHexOr_ cs
  | '0' :: cs => isRun (fun c => (c.isDigit && decide (c ≤ '7')) || c == '_') cs
  | cs =>
    isNumberWith isNonzeroDigit List.isEmpty cs || isNumberWith isNonzeroDigit isSixtieths cs

/-- Nothing, or an exponent with a sign. -/
def isExponent : List Char → Bool
  | [] => true
  | e :: s :: cs => (e == 'e' || e == 'E') && (s == '-' || s == '+') && isRun Char.isDigit cs
  | _ => false

/-- A point, digits, and maybe an exponent. -/
def isFraction : List Char → Bool
  | '.' :: cs => isExponent (cs.dropWhile isDigitOr_)
  | _ => false

/-- Parts in base sixty with a fraction at the end. -/
def isSixtiethsFraction (cs : List Char) : Bool :=
  isSixtieths (cs.takeWhile (· != '.')) &&
    match cs.dropWhile (· != '.') with
    | '.' :: rest => rest.all isDigitOr_
    | _ => false

/-- A number with a point. A number that starts with its point has no sign. -/
def isFloatWord (s : String) : Bool :=
  let cs := s.toList
  let body := (Number.splitSign cs).2
  isNumberWith Char.isDigit isFraction body ||
    isNumberWith Char.isDigit isSixtiethsFraction body ||
    (match cs with
      | '.' :: rest => isNumberWith Char.isDigit isExponent rest
      | _ => false) ||
    [".inf", ".Inf", ".INF"].contains (String.ofList body) ||
    [".nan", ".NaN", ".NAN"].contains s

/-! ## Timestamps -/

/-- The parts of a date and a time as written. -/
structure WrittenTime where
  year : Nat
  month : Nat
  day : Nat
  /-- Hour, minute and second, the digits of a fraction, and the offset from universal time
  in seconds. -/
  clock? : Option ((Nat × Nat × Nat) × List Char × Option Int)
  deriving DecidableEq, Repr

/-- Between `least` and `most` digits in front, and the characters after them. -/
def takeDigits? (least most : Nat) (cs : List Char) : Option (Nat × List Char) :=
  let digits := (cs.take most).takeWhile Char.isDigit
  if least ≤ digits.length then some (Number.ofDigits 10 digits, cs.drop digits.length) else none

/-- A given character in front. -/
def expect? (c : Char) : List Char → Option (List Char)
  | d :: cs => if c == d then some cs else none
  | [] => none

/-- The offset at the end of a timestamp: `Z`, or a sign, hours and maybe minutes. -/
def readOffset? (cs : List Char) : Option Int := do
  match cs with
  | ['Z'] => some 0
  | sign :: rest =>
    if sign == '-' || sign == '+' then
      let (hours, rest) ← takeDigits? 1 2 rest
      let minutes ←
        match rest with
        | [] => some 0
        | ':' :: rest => do
          let (minutes, rest) ← takeDigits? 2 2 rest
          if rest.isEmpty then some minutes else none
        | _ => none
      let seconds : Int := (hours * 60 + minutes) * 60
      some (if sign == '-' then -seconds else seconds)
    else none
  | [] => none

/-- The time of a day after the date. -/
def readClock? (cs : List Char) : Option ((Nat × Nat × Nat) × List Char × Option Int) := do
  let rest ←
    match cs with
    | c :: rest =>
      if c == 'T' || c == 't' then some rest
      else if c == ' ' || c == '\t' then some (rest.dropWhile fun c => c == ' ' || c == '\t')
      else none
    | [] => none
  let (hour, rest) ← takeDigits? 1 2 rest
  let (minute, rest) ← takeDigits? 2 2 (← expect? ':' rest)
  let (second, rest) ← takeDigits? 2 2 (← expect? ':' rest)
  let (fraction, rest) :=
    match rest with
    | '.' :: r => (r.takeWhile Char.isDigit, r.dropWhile Char.isDigit)
    | r => ([], r)
  let offset? ←
    if rest.isEmpty then some none
    else (readOffset? (rest.dropWhile fun c => c == ' ' || c == '\t')).map some
  some ((hour, minute, second), fraction, offset?)

/-- Reads a date, alone or with a time. -/
def readTime? (s : String) : Option WrittenTime := do
  let (year, rest) ← takeDigits? 4 4 s.toList
  let (month, rest) ← takeDigits? 1 2 (← expect? '-' rest)
  let (day, rest) ← takeDigits? 1 2 (← expect? '-' rest)
  if rest.isEmpty then some ⟨year, month, day, none⟩
  else
    let clock ← readClock? rest
    some ⟨year, month, day, some clock⟩

/-- A plain scalar that is a timestamp; a date alone has two digits for month and day. -/
def isTimeWord (s : String) : Bool :=
  match readTime? s with
  | none => false
  | some t => t.clock?.isSome || s.length == 10

/-! ## Resolution -/

/-- A text without the line feed at its end, if there is one. -/
def dropLineEnd (s : String) : String :=
  match s.toList.reverse with
  | '\n' :: cs => String.ofList cs.reverse
  | _ => s

/-- The characters that mark properties of a node. They mean nothing as a scalar. -/
def isMarkWord (s : String) : Bool := ["!", "&", "*"].contains s

/-- The tag of a word by its spelling. -/
def wordTag (s : String) : Tag :=
  if isBoolWord s then .bool
  else if isFloatWord s then .float
  else if isIntWord s then .int
  else if s == "<<" then .merge
  else if isNullWord s then .null
  else if isTimeWord s then .timestamp
  else if s == "=" then .value
  else if isMarkWord s then .other (standardNamespace ++ "yaml")
  else .str

/-- The tag of a plain scalar. A line feed at its end does not count, unless it is all there is. -/
def plainTag (text : List Text.CodePoint) : Tag :=
  match Text.chars? text with
  | none | some ['\n'] => .str
  | some cs => wordTag (dropLineEnd (String.ofList cs))

end Flowchart.Yaml

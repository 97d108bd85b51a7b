import Flowchart.Text.CodePoint

/-!
# Schema faults

Checking data against a schema does not stop at the first fault: every faulty
place is reported, with what is wrong there.
-/

namespace Flowchart.Schema

/-- One step of the way to a place inside data. -/
inductive Step where
  | key (name : RawText)
  | index (i : Int)
  deriving DecidableEq, Repr

/-- What is wrong at a place. -/
inductive Problem where
  | notModel (model : String)
  | notRecord (record : String)
  | missing
  | extra
  | keyNotText
  | notText
  | textNotUnicode
  /-- A suffix that breaks the rule, as it is shown. -/
  | badSuffix (shown : String)
  | notBool
  | unclearBool
  | notInt
  | unclearInt
  | longInt
  | fractionalInt
  | infiniteInt
  | notOneOf (choices : List String)
  | notList
  deriving DecidableEq, Repr

namespace Problem

/-- The code of a problem. -/
def code : Problem → String
  | notModel _ => "model_type"
  | notRecord _ => "dataclass_type"
  | missing => "missing"
  | extra => "extra_forbidden"
  | keyNotText => "invalid_key"
  | notText => "string_type"
  | textNotUnicode => "string_unicode"
  | badSuffix _ => "value_error"
  | notBool => "bool_type"
  | unclearBool => "bool_parsing"
  | notInt => "int_type"
  | unclearInt => "int_parsing"
  | longInt => "int_parsing_size"
  | fractionalInt => "int_from_float"
  | infiniteInt => "finite_number"
  | notOneOf _ => "enum"
  | notList => "list_type"

/-- Choices as a list in words: `'a', 'b' or 'c'`. -/
def alternatives : List String → String
  | [] => ""
  | [a] => Text.quoted a
  | [a, b] => Text.quoted a ++ " or " ++ Text.quoted b
  | a :: rest => Text.quoted a ++ ", " ++ alternatives rest

def message : Problem → String
  | notModel model => s!"Input should be a valid dictionary or instance of {model}"
  | notRecord record => s!"Input should be a dictionary or an instance of {record}"
  | missing => "Field required"
  | extra => "Extra inputs are not permitted"
  | keyNotText => "Keys should be strings"
  | notText => "Input should be a valid string"
  | textNotUnicode =>
    "Input should be a valid string, unable to parse raw data as a unicode string"
  | badSuffix shown =>
    "Value error, output-suffix must start with '.' and contain no path separators, got " ++ shown
  | notBool => "Input should be a valid boolean"
  | unclearBool => "Input should be a valid boolean, unable to interpret input"
  | notInt => "Input should be a valid integer"
  | unclearInt => "Input should be a valid integer, unable to parse string as an integer"
  | longInt => "Unable to parse input string as an integer, exceeded maximum size"
  | fractionalInt => "Input should be a valid integer, got a number with a fractional part"
  | infiniteInt => "Input should be a finite number"
  | notOneOf choices => "Input should be " ++ alternatives choices
  | notList => "Input should be a valid list"

end Problem

/-- A problem and its place. -/
structure Fault where
  place : List Step
  problem : Problem
  deriving DecidableEq, Repr

/-- The same fault, seen from one step further out. -/
def Fault.under (s : Step) (f : Fault) : Fault := { f with place := s :: f.place }

/-- A checked value, or all faults found in checking it. -/
abbrev Checked (α : Type) := Except (List Fault) α

/-- The faults of a check. -/
def faults {α : Type} : Checked α → List Fault
  | .ok _ => []
  | .error fs => fs

/-- A check of a part, seen from the whole. -/
def within {α : Type} (s : Step) (c : Checked α) : Checked α := c.mapError (·.map (·.under s))

/-- A check that finds at most one fault, in the value itself. -/
def here {α : Type} (r : Except Problem α) : Checked α := r.mapError fun p => [⟨[], p⟩]

/-- The heading above a list of faults. -/
def heading (model : String) (fs : List Fault) : String :=
  s!"{fs.length} validation error" ++ (if fs.length = 1 then "" else "s") ++ s!" for {model}"

end Flowchart.Schema

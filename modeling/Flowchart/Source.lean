import Flowchart.Text.Lines

/-!
# Source lines

A diagram is written as numbered physical lines. No token spans a line break,
so a line is the unit that the scanner works on.
-/

namespace Flowchart

/-- One physical line and its number in the document. -/
structure SourceLine where
  text : String
  number : Int
  deriving DecidableEq, Repr

/-- Lines numbered upwards from `first`. -/
def numberLines (first : Int) : List (List Char) → List SourceLine
  | [] => []
  | l :: ls => ⟨String.ofList l, first⟩ :: numberLines (first + 1) ls

/-- The lines of a document, numbered from 1. -/
def sourceLines (text : String) : List SourceLine :=
  numberLines 1 (Text.lines text.toList)

end Flowchart

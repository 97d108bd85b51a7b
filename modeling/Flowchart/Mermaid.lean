import Flowchart.Statement

/-!
# Mermaid flowcharts

Each statement becomes one line of a Mermaid flowchart. The call name picks
the shape: a rectangle, a cylinder, a subroutine box or a rhombus around the
label of a node, and a labelled arrow for a relation. A document is the header
and the lines, between Markdown fences if asked for.
-/

namespace Flowchart

/-- A statement has too few parameters for its shape; `index` is the first one missing. -/
structure MissingPiece where
  index : Nat
  deriving DecidableEq, Repr

def MissingPiece.message (m : MissingPiece) : String :=
  s!"Replacement index {m.index} out of range for positional args tuple"

/-- The flowchart line of a call. Parameters beyond the ones that the shape shows are left out. -/
def CallName.line (name : CallName) (params : List String) : Except MissingPiece String :=
  match name, params with
  | entity, id :: label :: _ => .ok (id ++ "[" ++ label ++ "]")
  | database, id :: label :: _ => .ok (id ++ "[(" ++ label ++ ")]")
  | queue, id :: label :: _ => .ok (id ++ "[[" ++ label ++ "]]")
  | decision, id :: label :: _ => .ok (id ++ "\x7b" ++ label ++ "\x7d")
  | rel, source :: label :: target :: _ => .ok (source ++ "-->|" ++ label ++ "|" ++ target)
  | _, params => .error ⟨params.length⟩

/-- The flowchart lines of statements, in order. A statement outside the vocabulary has none. -/
def generate : List Statement → Except MissingPiece (List String)
  | [] => .ok []
  | s :: ss =>
    match s.head with
    | .other _ => generate ss
    | .call name => do
      let l ← name.line (s.params.map (·.value))
      let ls ← generate ss
      return l :: ls

/-! ## Documents -/

def documentHeader : String := "flowchart LR"

def fenceOpen : String := "```mermaid"

def fenceClose : String := "```"

/-- The lines of a document around the flowchart lines. -/
def documentLines (fenced : Bool) (ls : List String) : List String :=
  if fenced then fenceOpen :: documentHeader :: ls ++ [fenceClose] else documentHeader :: ls

/-- The text of a document: each of its lines, ended by a newline. -/
def renderDocument (fenced : Bool) (ls : List String) : String :=
  String.join ((documentLines fenced ls).map (· ++ "\n"))

end Flowchart

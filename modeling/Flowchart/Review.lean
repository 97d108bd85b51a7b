import Flowchart.Statement

/-!
# Review of a diagram

A flowchart may declare a node twice and may draw an edge to a node that it
does not declare. Neither stops a build; the review points both out.
-/

namespace Flowchart

/-- What the review points out, with the line of the statement. -/
inductive Warning where
  /-- The node is declared again; `first` is the line of its first declaration. -/
  | repeated (line : Int) (id : String) (first : Int)
  /-- An end of the relation is declared nowhere. -/
  | undeclared (line : Int) (id : String)
  deriving DecidableEq, Repr

namespace Warning

def line : Warning → Int
  | repeated l _ _ | undeclared l _ => l

def message : Warning → String
  | repeated l id first => s!"Line {l}: node '{id}' is already declared on line {first}"
  | undeclared l id => s!"Line {l}: relation refers to undeclared node '{id}'"

end Warning

/-- A statement that lacks a parameter the review looks at. -/
inductive ReviewFailure where
  | missingParameter
  deriving DecidableEq, Repr

def ReviewFailure.message : ReviewFailure → String
  | missingParameter => "list index out of range"

/-- A parameter that the review needs. -/
def Statement.need (s : Statement) (i : Nat) : Except ReviewFailure String :=
  match s.param? i with
  | some v => .ok v
  | none => .error .missingParameter

/-- The repeated declarations, given the ids declared so far with their lines. -/
def repeatedFrom (seen : List (String × Int)) :
    List Statement → Except ReviewFailure (List Warning)
  | [] => .ok []
  | s :: ss =>
    if s.isNode then do
      let id ← s.need 0
      match seen.lookup id with
      | some first => return .repeated s.line id first :: (← repeatedFrom seen ss)
      | none => repeatedFrom ((id, s.line) :: seen) ss
    else repeatedFrom seen ss

/-- The ids that the statements declare. -/
def declaredIds : List Statement → Except ReviewFailure (List String)
  | [] => .ok []
  | s :: ss =>
    if s.isNode then do
      let id ← s.need 0
      return id :: (← declaredIds ss)
    else declaredIds ss

/-- The ends of relations outside the declared ids. -/
def undeclaredEnds (declared : List String) :
    List Statement → Except ReviewFailure (List Warning)
  | [] => .ok []
  | s :: ss =>
    if s.head = .call .rel then do
      let source ← s.need 0
      let target ← s.need 2
      let ends := [source, target].filter (!declared.contains ·)
      return ends.map (.undeclared s.line) ++ (← undeclaredEnds declared ss)
    else undeclaredEnds declared ss

/-- All warnings, by line; on one line repeated declarations come first. -/
def review (ss : List Statement) : Except ReviewFailure (List Warning) := do
  let repeatedOnes ← repeatedFrom [] ss
  let declared ← declaredIds ss
  let undeclaredOnes ← undeclaredEnds declared ss
  return (repeatedOnes ++ undeclaredOnes).mergeSort (fun a b => decide (a.line ≤ b.line))

end Flowchart

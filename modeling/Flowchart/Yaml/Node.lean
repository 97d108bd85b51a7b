import Flowchart.Yaml.Fault
import Flowchart.Yaml.Tag

/-!
# Nodes of a YAML document

The nodes of a document are numbered in the order in which they start. A
collection holds the numbers of its parts, and an alias is the number of the
node it names, so that one node may be a part of several others, and even of
itself.
-/

namespace Flowchart.Yaml

open Flowchart.Text

/-- What a node holds. -/
inductive Content where
  | scalar (text : List CodePoint)
  | sequence (items : List Nat)
  | mapping (pairs : List (Nat × Nat))
  deriving DecidableEq, Repr

structure Node where
  tag : Tag
  content : Content
  deriving DecidableEq, Repr

/-- A node that is not written at all. -/
def Node.empty : Node := ⟨.null, .scalar []⟩

/-- The nodes of a document by their numbers. -/
structure Graph where
  nodes : Array Node := #[]
  deriving DecidableEq, Repr

namespace Graph

def size (g : Graph) : Nat := g.nodes.size

def node (g : Graph) (n : Nat) : Node := g.nodes.getD n .empty

def tag (g : Graph) (n : Nat) : Tag := (g.node n).tag

def content (g : Graph) (n : Nat) : Content := (g.node n).content

/-- Adds a node; its number is the size of the graph before. -/
def push (g : Graph) (n : Node) : Graph := ⟨g.nodes.push n⟩

def setTag (g : Graph) (n : Nat) (tag : Tag) : Graph := ⟨g.nodes.modify n ({ · with tag })⟩

def setContent (g : Graph) (n : Nat) (content : Content) : Graph :=
  ⟨g.nodes.modify n ({ · with content })⟩

/-- The pairs of a mapping; other nodes have none. -/
def pairs (g : Graph) (n : Nat) : List (Nat × Nat) :=
  match g.content n with
  | .mapping pairs => pairs
  | _ => []

def isMapping (g : Graph) (n : Nat) : Bool :=
  match g.content n with
  | .mapping _ => true
  | _ => false

/-- Follows the values of the keys `=` to a scalar. Only a chain that comes back to itself is
endless: a stack that overflows on a long one is left out. -/
def textWithin (g : Graph) : Nat → Nat → Except Fault (List CodePoint)
  | 0, _ => .error .endlessText
  | fuel + 1, n =>
    match g.content n with
    | .scalar text => .ok text
    | .mapping pairs =>
      match pairs.find? fun p => g.tag p.1 == .value with
      | some p => g.textWithin fuel p.2
      | none => .error .malformed
    | .sequence _ => .error .malformed

/-- The text of a node. A mapping stands for the value of its key `=`. -/
def text (g : Graph) (n : Nat) : Except Fault (List CodePoint) := g.textWithin (g.size + 1) n

end Graph

end Flowchart.Yaml

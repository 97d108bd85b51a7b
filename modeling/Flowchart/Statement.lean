import Flowchart.Token

/-!
# Statements

A statement is a call `Name(parameter, ...)`. The vocabulary of call names is
closed: four of them declare a node, `Rel` draws an edge between two nodes.
-/

namespace Flowchart

/-- The vocabulary of call names. -/
inductive CallName where
  | entity
  | database
  | rel
  | queue
  | decision
  deriving DecidableEq, Repr

namespace CallName

/-- Every call name, in the order in which messages list them. -/
def all : List CallName := [entity, database, rel, queue, decision]

/-- The spelling of a call name in a diagram. -/
def text : CallName → String
  | entity => "Entity"
  | database => "Database"
  | rel => "Rel"
  | queue => "Queue"
  | decision => "Decision"

def ofText? (s : String) : Option CallName := all.find? (·.text == s)

def isNode : CallName → Bool
  | rel => false
  | entity | database | queue | decision => true

/-- The kinds of the parameters: an id and a label, and for an edge the id of its target. -/
def signature : CallName → List Kind
  | rel => [.identifier, .string, .identifier]
  | entity | database | queue | decision => [.identifier, .string]

end CallName

/-- The word that heads a statement: a call name, or a word outside the vocabulary. -/
inductive Head where
  | call (name : CallName)
  | other (text : String)
  deriving DecidableEq, Repr

namespace Head

def ofText (s : String) : Head :=
  match CallName.ofText? s with
  | some name => call name
  | none => other s

def text : Head → String
  | call name => name.text
  | other s => s

def isNode : Head → Bool
  | call name => name.isNode
  | other _ => false

end Head

/-- A statement, with the line of its head. -/
structure Statement where
  head : Head
  line : Int
  params : List Token
  deriving DecidableEq, Repr

namespace Statement

/-- Whether the statement declares a node. -/
def isNode (s : Statement) : Bool := s.head.isNode

/-- The text of the parameter at an index. -/
def param? (s : Statement) (i : Nat) : Option String := s.params[i]?.map (·.value)

end Statement

end Flowchart

/-!
# Tokens

The lexical units of the diagram notation.
-/

namespace Flowchart

/-- The kinds of token. No scanner produces `quote`; the kind is reserved. -/
inductive Kind where
  | number
  | string
  | identifier
  | openParen
  | closeParen
  | quote
  deriving DecidableEq, Repr

namespace Kind

/-- Every kind, in the order in which messages list them. -/
def all : List Kind := [number, string, identifier, openParen, closeParen, quote]

/-- The name of a kind in messages. -/
def text : Kind → String
  | number => "NumberLiteral"
  | string => "StringLiteral"
  | identifier => "Identifier"
  | openParen => "OpenParen"
  | closeParen => "CloseParen"
  | quote => "Quote"

def ofText? (s : String) : Option Kind := all.find? (·.text == s)

/-- The kinds that may stand in a parameter list. -/
def isParameter : Kind → Bool
  | number | string | identifier => true
  | openParen | closeParen | quote => false

end Kind

/-- A token with the line it was found on. The value of a string is its content
without the quotes. -/
structure Token where
  kind : Kind
  value : String
  line : Int
  deriving DecidableEq, Repr

end Flowchart

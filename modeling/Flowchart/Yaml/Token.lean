import Flowchart.Text.CodePoint

/-!
# YAML tokens

The indicators, scalars and node properties of a YAML text in order. Block
collections are delimited by tokens of their own, found from the indentation.
-/

namespace Flowchart.Yaml

/-- A line that starts with a percent sign. -/
inductive Directive where
  | version (major : Nat)
  | tag (handle : String) (expansion : String)
  | other
  deriving DecidableEq, Repr

inductive Token where
  | directive (d : Directive)
  | documentStart
  | documentEnd
  | blockSequenceStart
  | blockMappingStart
  | blockEnd
  | flowSequenceStart
  | flowSequenceEnd
  | flowMappingStart
  | flowMappingEnd
  | blockEntry
  | flowEntry
  | key
  | value
  | alias (name : String)
  | anchor (name : String)
  | tag (handle? : Option String) (suffix : String)
  | scalar (text : List Text.CodePoint) (plain : Bool)
  deriving DecidableEq, Repr

end Flowchart.Yaml

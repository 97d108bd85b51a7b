import Flowchart.Statement
import Flowchart.Text.Quoted

/-!
# Diagnostics

Scanning and parsing stop at the first fault. A diagnostic is the line it is
attributed to and its cause; the cause fixes the kind, the offending text and
the wording of the message.
-/

namespace Flowchart

/-- The step of compilation that finds a fault. -/
inductive Stage where
  | scanning
  | parsing
  deriving DecidableEq, Repr

/-- The kinds of fault. -/
inductive FaultKind where
  | unexpectedToken
  | unknownCall
  | expectedOpen
  | expectedClose
  | unexpectedParameter
  | unterminatedCall
  | invalidParameters
  deriving DecidableEq, Repr

def FaultKind.text : FaultKind → String
  | unexpectedToken => "UnexpectedToken"
  | unknownCall => "UnknownCallExpression"
  | expectedOpen => "ExpectedOpenParen"
  | expectedClose => "ExpectedCloseParen"
  | unexpectedParameter => "UnexpectedParameterToken"
  | unterminatedCall => "UnterminatedCallExpression"
  | invalidParameters => "InvalidParameters"

/-- What went wrong. `found` is the value of the token in the way, and `none` at the end of
the input. -/
inductive Cause where
  | strayCharacter (c : Option Char)
  | trailingCharacter (c : Char)
  | unterminatedString
  | unknownCall (name : String)
  | expectedOpen (name : String) (found : Option String)
  | expectedClose (name : String) (found : Option String)
  | unexpectedParameter (name : String) (kind : Kind) (value : String)
  | unterminatedCall (name : String)
  | wrongCount (name : CallName) (count : Nat)
  | wrongKind (name : CallName) (index : Nat) (expected found : Kind) (value : String)
  deriving DecidableEq, Repr

/-- The word for a parameter position. -/
def ordinal : Nat → String
  | 0 => "first"
  | 1 => "second"
  | _ => "third"

namespace Cause

def stage : Cause → Stage
  | strayCharacter _ | trailingCharacter _ | unterminatedString => .scanning
  | _ => .parsing

def kind : Cause → FaultKind
  | strayCharacter _ | trailingCharacter _ | unterminatedString => .unexpectedToken
  | unknownCall _ => .unknownCall
  | expectedOpen _ _ => .expectedOpen
  | expectedClose _ _ => .expectedClose
  | unexpectedParameter _ _ _ => .unexpectedParameter
  | unterminatedCall _ => .unterminatedCall
  | wrongCount _ _ | wrongKind _ _ _ _ _ => .invalidParameters

/-- The offending text, if there is one. -/
def text? : Cause → Option String
  | strayCharacter (some c) | trailingCharacter c => some (String.singleton c)
  | strayCharacter none => some ""
  | unterminatedString => some "\""
  | unknownCall name | unterminatedCall name => some name
  | expectedOpen _ found | expectedClose _ found => found
  | unexpectedParameter _ _ value | wrongKind _ _ _ _ value => some value
  | wrongCount name _ => some name.text

def message : Cause → String
  | strayCharacter c => "Unexpected token: " ++ Text.quoted (c.elim "" String.singleton)
  | trailingCharacter c => "Unexpected token " ++ Text.quoted (String.singleton c) ++ " after ')'"
  | unterminatedString => "Unterminated string literal"
  | unknownCall name => s!"Unexpected {name} call expression"
  | expectedOpen name _ => s!"Expected '(' after {name} identifier"
  | expectedClose name _ => s!"Expected ')' after {name} parameters"
  | unexpectedParameter name kind _ => s!"Unexpected {kind.text} token in {name} parameter list"
  | unterminatedCall name => s!"Missing ')' to close {name} call expression"
  | wrongCount name count =>
    s!"{name.text} call expression expected {name.signature.length} parameters, got {count}"
  | wrongKind name index expected found _ =>
    s!"{name.text} call expression {ordinal index} parameter expected {expected.text}, " ++
      s!"got {found.text}"

end Cause

/-- A fault and the line it is attributed to. -/
structure Diagnostic where
  line : Int
  cause : Cause
  deriving DecidableEq, Repr

/-- The message of a diagnostic names its line first. -/
def Diagnostic.message (d : Diagnostic) : String := s!"Line {d.line}: {d.cause.message}"

end Flowchart

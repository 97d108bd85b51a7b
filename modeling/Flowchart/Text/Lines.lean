/-!
# Lines of a text

A text is cut after every line terminator: a carriage return followed by a
line feed counts as one terminator, every other terminator is one character.
The terminators are dropped, and a terminator at the very end opens no
further line.
-/

namespace Flowchart.Text

/-- The characters that end a line. -/
def isTerminator (c : Char) : Bool :=
  c == '\n' || c == '\r' || c == '\x0b' || c == '\x0c' || c == '\x1c' || c == '\x1d' ||
    c == '\x1e' || c == '\u0085' || c == '\u2028' || c == '\u2029'

/-- The lines of a text, without their terminators. -/
def lines : List Char → List (List Char)
  | [] => []
  | '\r' :: '\n' :: rest => [] :: lines rest
  | c :: rest =>
    if isTerminator c then [] :: lines rest
    else
      match lines rest with
      | [] => [[c]]
      | l :: ls => (c :: l) :: ls

/-- Unified line ends: `\r\n` and a lone `\r` become `\n`. -/
def unifyNewlines : List Char → List Char
  | [] => []
  | '\r' :: '\n' :: rest => '\n' :: unifyNewlines rest
  | '\r' :: rest => '\n' :: unifyNewlines rest
  | c :: rest => c :: unifyNewlines rest

end Flowchart.Text

/-!
# Coloured text

A colour is switched on before a text and off after it. It is never on across
the end of a line, and text that switches colours off itself gets its colour
back.
-/

namespace Flowchart

inductive Colour where
  | red
  | green
  | yellow
  deriving DecidableEq, Repr

namespace Colour

/-- The sequence that switches a colour on. -/
def opening : Colour → List Char
  | red => "\x1b[31m".toList
  | green => "\x1b[32m".toList
  | yellow => "\x1b[33m".toList

/-- The sequence that switches any colour off. -/
def closing : List Char := ['\x1b', '[', '3', '9', 'm']

/-- Switches the colour on again wherever it is switched off. -/
def reopen (c : Colour) : List Char → List Char
  | [] => []
  | '\x1b' :: '[' :: '3' :: '9' :: 'm' :: cs => closing ++ c.opening ++ c.reopen cs
  | x :: cs => x :: c.reopen cs

/-- The sequence that resets everything. -/
def reset : List Char := ['\x1b', '[', '0', 'm']

/-- The rest of a line up to the next reset, and what comes after the reset. -/
def untilReset? : List Char → Option (List Char × List Char)
  | [] => none
  | '\x1b' :: '[' :: '0' :: 'm' :: cs => some ([], cs)
  | '\n' :: _ => none
  | x :: cs => (untilReset? cs).map fun r => (x :: r.1, r.2)

/-- Switches the colour off around each part of a line that stands between two resets. -/
def skipResets (c : Colour) : Nat → List Char → List Char
  | fuel + 1, '\x1b' :: '[' :: '0' :: 'm' :: cs =>
    match untilReset? cs with
    | some (inner, rest) =>
      closing ++ reset ++ inner ++ reset ++ c.opening ++ c.skipResets fuel rest
    | none => reset ++ c.skipResets fuel cs
  | fuel + 1, x :: cs => x :: c.skipResets fuel cs
  | _, cs => cs

/-- Switches the colour off for each line end. -/
def skipLineEnds (c : Colour) : List Char → List Char
  | [] => []
  | '\r' :: '\n' :: cs => closing ++ ['\r', '\n'] ++ c.opening ++ c.skipLineEnds cs
  | '\n' :: cs => closing ++ ['\n'] ++ c.opening ++ c.skipLineEnds cs
  | x :: cs => x :: c.skipLineEnds cs

def paint (c : Colour) (s : String) : String :=
  let cs := c.reopen s.toList
  String.ofList (c.opening ++ c.skipLineEnds (c.skipResets cs.length cs) ++ closing)

end Colour

end Flowchart

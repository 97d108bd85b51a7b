import Flowchart.Text.Utf8
import Flowchart.Yaml.Character
import Flowchart.Yaml.Scalar
import Flowchart.Yaml.Token

/-!
# Node properties and directives

Anchors, aliases and tags stand before a node; directives stand before a
document.
-/

namespace Flowchart.Yaml

/-- Reads the name of an anchor or an alias. -/
def readName (cs : List Char) : Read String :=
  let name := cs.takeWhile isWordChar
  let rest := cs.dropWhile isWordChar
  if name.isEmpty then .error .malformed
  else if endsWord rest.head? || rest.head?.any ("?:,]\x7d%@`".toList.contains ·) then
    .ok (String.ofList name, rest)
  else .error .malformed

/-- The characters of a tag, apart from escapes. -/
def isTagChar (c : Char) : Bool := c.isAlphanum || "-;/?:@&=+$,_.!~*'()[]".toList.contains c

/-- Reads escaped bytes: a percent sign and two hexadecimal digits each. -/
def readEscapedBytes : Nat → List Char → Read (List UInt8)
  | fuel + 1, '%' :: cs =>
    match readHex 2 cs with
    | none => .error .malformed
    | some (n, rest) => (readEscapedBytes fuel rest).map fun r => (n.toUInt8 :: r.1, r.2)
  | _, cs => .ok ([], cs)

/-- Reads the characters of a tag, escapes included. -/
def readTagChars : Nat → List Char → Read (List Char)
  | 0, _ => .error .malformed
  | fuel + 1, cs =>
    let run := cs.takeWhile isTagChar
    let rest := cs.dropWhile isTagChar
    match rest with
    | '%' :: _ =>
      match readEscapedBytes rest.length rest with
      | .error f => .error f
      | .ok (bytes, rest) =>
        match Text.decodeUtf8 bytes with
        | .error _ => .error .malformed
        | .ok chars => (readTagChars fuel rest).map fun r => (run ++ chars ++ r.1, r.2)
    | _ => .ok (run, rest)

/-- Reads at least one character of a tag. -/
def readTagText (cs : List Char) : Read String :=
  match cs with
  | [] => .error .malformed
  | c :: _ =>
    if isTagChar c || c == '%' then
      (readTagChars (cs.length + 1) cs).map fun r => (String.ofList r.1, r.2)
    else .error .malformed

/-- Reads a tag handle: `!`, `!!` or `!word!`. -/
def readHandle (cs : List Char) : Read String :=
  match cs with
  | '!' :: rest =>
    if rest.head? == some ' ' then .ok ("!", rest)
    else
      match rest.dropWhile isWordChar with
      | '!' :: left => .ok (String.ofList ('!' :: rest.takeWhile isWordChar ++ ['!']), left)
      | _ => .error .malformed
  | _ => .error .malformed

/-- Requires that a field ends here. -/
def atFieldEnd {α : Type} (r : Read α) : Read α :=
  match r with
  | .ok (a, rest) => if endsField rest.head? then .ok (a, rest) else .error .malformed
  | .error f => .error f

/-- Reads a tag after its exclamation mark. -/
def readTag (cs : List Char) : Read (Option String × String) :=
  atFieldEnd <|
    match cs with
    | '<' :: rest =>
      match readTagText rest with
      | .ok (suffix, '>' :: left) => .ok ((none, suffix), left)
      | .ok _ => .error .malformed
      | .error f => .error f
    | _ =>
      if endsWord cs.head? then .ok ((none, "!"), cs)
      else if (cs.takeWhile (fun c => !endsField (some c))).contains '!' then
        match readHandle ('!' :: cs) with
        | .error f => .error f
        | .ok (handle, rest) => (readTagText rest).map fun r => ((some handle, r.1), r.2)
      else (readTagText cs).map fun r => ((some "!", r.1), r.2)

/-! ## Directives -/

/-- Reads the digits of a version number. -/
def readDigits (cs : List Char) : Read Nat :=
  let digits := cs.takeWhile Char.isDigit
  if digits.isEmpty then .error .malformed
  else if Number.maxDigits < digits.length then .error (.number (.tooLong digits.length))
  else .ok (Number.ofDigits 10 digits, cs.dropWhile Char.isDigit)

def readVersion (cs : List Char) : Read Directive :=
  atFieldEnd <|
    match readDigits (cs.dropWhile (· == ' ')) with
    | .ok (major, '.' :: rest) => (readDigits rest).map fun r => (.version major, r.2)
    | .ok _ => .error .malformed
    | .error f => .error f

def readTagDirective (cs : List Char) : Read Directive :=
  atFieldEnd <|
    match readHandle (cs.dropWhile (· == ' ')) with
    | .error f => .error f
    | .ok (handle, rest) =>
      if rest.head? == some ' ' then
        (readTagText (rest.dropWhile (· == ' '))).map fun r => (.tag handle r.1, r.2)
      else .error .malformed

/-- Reads a directive after its percent sign, with the rest of its line. -/
def readDirective (cs : List Char) : Read Directive :=
  let name := String.ofList (cs.takeWhile isWordChar)
  let rest := cs.dropWhile isWordChar
  if name.isEmpty || !endsField rest.head? then .error .malformed
  else
    let d :=
      if name == "YAML" then readVersion rest
      else if name == "TAG" then readTagDirective rest
      else .ok (.other, rest.dropWhile (!isBreak ·))
    match d with
    | .error f => .error f
    | .ok (d, rest) =>
      match finishLine? rest with
      | none => .error .malformed
      | some rest => .ok (d, rest)

end Flowchart.Yaml

import Flowchart.Text.CodePoint
import Flowchart.Yaml.Character
import Flowchart.Yaml.Fault

/-!
# YAML scalars

The five ways to write a scalar. Each reader takes the characters after the
opening indicator and gives the content and the characters left.
-/

namespace Flowchart.Yaml

open Flowchart.Text

/-- The content read and the characters left. -/
abbrev Read (α : Type) := Except Fault (α × List Char)

/-! ## Quoted scalars -/

/-- Reads the empty lines after a line break inside quotes. A document mark at the start of a
line is refused. -/
def readFoldedBreaks : Nat → List Char → Read (List Char)
  | 0, _ => .error .malformed
  | fuel + 1, cs =>
    if startsDocumentMark cs then .error .malformed
    else
      match cs.dropWhile isWhite with
      | c :: rest =>
        if isBreak c then
          match readFoldedBreaks fuel rest with
          | .error f => .error f
          | .ok (bs, left) => .ok (normalBreak c :: bs, left)
        else .ok ([], c :: rest)
      | [] => .ok ([], [])

/-- What a line break and the empty lines after it leave: a single line feed becomes a space. -/
def foldBreaks (first : Char) (more : List Char) : List Char :=
  if normalBreak first ≠ '\n' then normalBreak first :: more
  else if more.isEmpty then [' '] else more

/-- The characters that a backslash and a letter stand for. -/
def escape? : Char → Option Char
  | '0' => some '\x00'
  | 'a' => some '\x07'
  | 'b' => some '\x08'
  | 't' | '\t' => some '\t'
  | 'n' => some '\n'
  | 'v' => some '\x0b'
  | 'f' => some '\x0c'
  | 'r' => some '\r'
  | 'e' => some '\x1b'
  | ' ' => some ' '
  | '"' => some '"'
  | '\\' => some '\\'
  | '/' => some '/'
  | 'N' => some '\u0085'
  | '_' => some '\u00a0'
  | 'L' => some '\u2028'
  | 'P' => some '\u2029'
  | _ => none

/-- The number of hexadecimal digits after `\x`, `\u` and `\U`. -/
def escapeWidth? : Char → Option Nat
  | 'x' => some 2
  | 'u' => some 4
  | 'U' => some 8
  | _ => none

/-- Reads a fixed number of hexadecimal digits. -/
def readHex (width : Nat) (cs : List Char) : Option (Nat × List Char) :=
  let digits := cs.take width
  if digits.length = width && digits.all (fun c => (Number.baseDigit? 16 c).isSome) then
    some (Number.ofDigits 16 digits, cs.drop width)
  else none

/-- Reads the content of a single-quoted scalar and its closing quote. -/
def readSingle : Nat → List Char → Read (List Char)
  | 0, _ => .error .malformed
  | _, [] => .error .malformed
  | fuel + 1, c :: cs =>
    let emit (chars : List Char) (rest : List Char) : Read (List Char) :=
      (readSingle fuel rest).map fun r => (chars ++ r.1, r.2)
    if c == '\'' then
      match cs with
      | '\'' :: rest => emit ['\''] rest
      | rest => .ok ([], rest)
    else
      match (c :: cs).dropWhile isWhite with
      | b :: rest =>
        if isBreak b then
          match readFoldedBreaks (rest.length + 1) rest with
          | .error f => .error f
          | .ok (more, rest) => emit (foldBreaks b more) rest
        else emit [c] cs
      | [] => .error .malformed

/-- Reads the content of a double-quoted scalar and its closing quote. -/
def readDouble : Nat → List Char → Read (List CodePoint)
  | 0, _ => .error .malformed
  | _, [] => .error .malformed
  | fuel + 1, c :: cs =>
    let emit (ps : List CodePoint) (rest : List Char) : Read (List CodePoint) :=
      (readDouble fuel rest).map fun r => (ps ++ r.1, r.2)
    if c == '"' then .ok ([], cs)
    else if c == '\\' then
      match cs with
      | [] => .error .malformed
      | e :: rest =>
        match escape? e with
        | some d => emit [.char d] rest
        | none =>
          match escapeWidth? e with
          | some width =>
            match readHex width rest with
            | none => .error .malformed
            | some (code, rest) =>
              if code < 0x110000 then emit [.ofNat code] rest
              else .error (.noCharacter code)
          | none =>
            if isBreak e then
              match readFoldedBreaks (rest.length + 1) rest with
              | .error f => .error f
              | .ok (more, rest) => emit (codePoints more) rest
            else .error .malformed
    else
      match (c :: cs).dropWhile isWhite with
      | b :: rest =>
        if isBreak b then
          match readFoldedBreaks (rest.length + 1) rest with
          | .error f => .error f
          | .ok (more, rest) => emit (codePoints (foldBreaks b more)) rest
        else emit [.char c] cs
      | [] => .error .malformed

/-! ## Plain scalars -/

/-- Whether a plain scalar stops before this character. -/
def stopsPlain (inFlow : Bool) (c : Char) (after : Option Char) : Bool :=
  endsWord (some c) ||
    (c == ':' && (endsWord after || (inFlow && after.any (",[]\x7b\x7d".toList.contains ·)))) ||
    (inFlow && ",?[]\x7b\x7d".toList.contains c)

/-- The characters of a plain scalar up to a blank or an indicator. -/
def plainRun (inFlow : Bool) : List Char → List Char
  | [] => []
  | c :: cs => if stopsPlain inFlow c cs.head? then [] else c :: plainRun inFlow cs

/-- Reads spaces and line breaks between the lines of a plain scalar. `none` means that a
document mark ends the scalar. -/
def plainBreaks : List Char → Option (List Char) × List Char
  | [] => (some [], [])
  | c :: cs =>
    if c == ' ' then plainBreaks cs
    else if isBreak c then
      if startsDocumentMark cs then (none, cs)
      else
        let r := plainBreaks cs
        (r.1.map (normalBreak c :: ·), r.2)
    else (some [], c :: cs)

/-- What stands between two runs of a plain scalar. -/
structure PlainGap where
  /-- The characters that the gap leaves in the scalar; `none` ends it. -/
  fill : Option (List Char)
  rest : List Char
  /-- Whether the gap reaches into a new line. -/
  broken : Bool

def plainGap (cs : List Char) : PlainGap :=
  match cs.dropWhile (· == ' ') with
  | [] => ⟨some (cs.takeWhile (· == ' ')), [], false⟩
  | c :: rest =>
    if isBreak c then
      if startsDocumentMark rest then ⟨none, rest, true⟩
      else
        let r := plainBreaks rest
        ⟨r.1.map (foldBreaks c), r.2, true⟩
    else ⟨some (cs.takeWhile (· == ' ')), c :: rest, false⟩

/-! ## Block scalars -/

/-- What happens to the line breaks at the end of a block scalar. -/
inductive Chomping where
  | clip
  | strip
  | keep
  deriving DecidableEq, Repr

/-- Reads the chomping sign and the indentation digit of a block scalar, in either order. -/
def readBlockHeader (cs : List Char) : Option ((Chomping × Option Nat) × List Char) :=
  let sign? (c : Char) : Option Chomping :=
    if c == '+' then some .keep else if c == '-' then some .strip else none
  let digit? (c : Char) : Option Nat := if c.isDigit then some (c.toNat - '0'.toNat) else none
  let header? : Option ((Chomping × Option Nat) × List Char) :=
    match cs with
    | [] => some ((.clip, none), [])
    | c :: rest =>
      match sign? c with
      | some chomping =>
        match rest with
        | d :: left =>
          match digit? d with
          | some n => if n = 0 then none else some ((chomping, some n), left)
          | none => some ((chomping, none), rest)
        | [] => some ((chomping, none), rest)
      | none =>
        match digit? c with
        | none => some ((.clip, none), cs)
        | some n =>
          if n = 0 then none
          else
            match rest with
            | s :: left =>
              match sign? s with
              | some chomping => some ((chomping, some n), left)
              | none => some ((.clip, some n), rest)
            | [] => some ((.clip, some n), rest)
  match header? with
  | some (h, rest) => if endsField rest.head? then some (h, rest) else none
  | none => none

/-- Skips spaces and a comment to the end of a line, and the line break. -/
def finishLine? (cs : List Char) : Option (List Char) :=
  let rest := cs.dropWhile (· == ' ')
  let rest :=
    match rest with
    | '#' :: _ => rest.dropWhile (!isBreak ·)
    | _ => rest
  match rest with
  | [] => some []
  | c :: left => if isBreak c then some left else none

/-- Leading empty lines of a block scalar: their breaks, the widest indentation seen, the
column reached, and the characters left. -/
def leadingBreaks (column widest : Nat) : List Char → List Char × Nat × Nat × List Char
  | [] => ([], widest, column, [])
  | c :: cs =>
    if c == ' ' then leadingBreaks (column + 1) (max widest (column + 1)) cs
    else if isBreak c then
      let r := leadingBreaks 0 widest cs
      (normalBreak c :: r.1, r.2)
    else ([], widest, column, c :: cs)

/-- Empty lines inside a block scalar: their breaks, the column reached, and the characters
left. At most `indent` spaces of a line are skipped. -/
def innerBreaks (indent column : Nat) : List Char → List Char × Nat × List Char
  | [] => ([], column, [])
  | c :: cs =>
    if c == ' ' && decide (column < indent) then innerBreaks indent (column + 1) cs
    else if isBreak c then
      let r := innerBreaks indent 0 cs
      (normalBreak c :: r.1, r.2)
    else ([], column, c :: cs)

/-- Reads the lines of a block scalar; `breaks` are the ones that stand before the next line. -/
def readBlockLines (folded : Bool) (chomping : Chomping) (indent : Nat) :
    Nat → List Char → Nat → List Char → List Char × List Char
  | 0, _, _, cs => ([], cs)
  | fuel + 1, breaks, column, cs =>
    if column ≠ indent || cs.isEmpty then
      -- The scalar has no line at all.
      (if chomping = .keep then breaks else [], cs)
    else
      let line := cs.takeWhile (!isBreak ·)
      let tail := cs.dropWhile (!isBreak ·)
      let lineBreak := tail.head?.elim [] fun b => [normalBreak b]
      let (more, column, rest) := innerBreaks indent 0 (tail.drop 1)
      if column = indent && !rest.isEmpty then
        let joint :=
          if folded && lineBreak == ['\n'] && !startsWhite cs && !startsWhite rest then
            (if more.isEmpty then [' '] else [])
          else lineBreak
        let (content, left) := readBlockLines folded chomping indent fuel more column rest
        (breaks ++ line ++ joint ++ content, left)
      else
        let last := if chomping = .strip then [] else lineBreak
        let kept := if chomping = .keep then more else []
        (breaks ++ line ++ last ++ kept, rest)

/-- Reads a block scalar after its indicator, inside a block indented by `outer`. -/
def readBlock (folded : Bool) (outer : Int) (cs : List Char) : Read (List Char) :=
  match readBlockHeader cs with
  | none => .error .malformed
  | some ((chomping, increment?), rest) =>
    match finishLine? rest with
    | none => .error .malformed
    | some rest =>
      let least := (outer + 1).toNat.max 1
      match increment? with
      | none =>
        let (breaks, widest, column, rest) := leadingBreaks 0 0 rest
        .ok (readBlockLines folded chomping (max least widest) (rest.length + 1) breaks column rest)
      | some n =>
        let indent := least + n - 1
        let (breaks, column, rest) := innerBreaks indent 0 rest
        .ok (readBlockLines folded chomping indent (rest.length + 1) breaks column rest)

end Flowchart.Yaml

import Flowchart.Yaml.Property
import Flowchart.Yaml.Scalar
import Flowchart.Yaml.Token

/-!
# From text to tokens

A node that turns out to be followed by a colon was a key all along. So the
place of each node that may be such a simple key is kept, and the key token is
put in front of it when the colon comes. A simple key lies on one line and has
at most 1024 characters. In block context the indentation opens and closes
collections.

Tokens are read only as far as they are asked for. More text is read when no
token is left, or when the next one may still turn out to be a key. Brackets
are counted, however many are open: a stack that overflows is left out here.
-/

namespace Flowchart.Yaml

open Flowchart.Text

/-- A place in a text: the characters left, the number of characters before it, and its line
and column. -/
structure Place where
  rest : List Char
  index : Nat
  line : Nat
  column : Nat
  deriving DecidableEq, Repr

namespace Place

def start (cs : List Char) : Place := ⟨cs, 0, 0, 0⟩

/-- One character on. -/
def advance (p : Place) : Place :=
  match p.rest with
  | [] => p
  | c :: cs =>
    if isBreak c then ⟨cs, p.index + 1, p.line + 1, 0⟩
    else ⟨cs, p.index + 1, p.line, if c == byteOrderMark then p.column else p.column + 1⟩

def advanceBy : Nat → Place → Place
  | 0, p => p
  | n + 1, p => advanceBy n p.advance

/-- The place at which the given characters are left. -/
def moveTo (p : Place) (rest : List Char) : Place := p.advanceBy (p.rest.length - rest.length)

end Place

/-- A node that may be a simple key. -/
structure SimpleKey where
  /-- The number of tokens before the node. -/
  tokens : Nat
  /-- Whether the indentation leaves no other choice. -/
  required : Bool
  index : Nat
  line : Nat
  column : Nat
  deriving DecidableEq, Repr

/-- A text that is being cut into tokens. `keys` holds the possible simple key of each flow
level, `tokens` what is read and not yet taken, and `taken` the number of tokens taken. -/
structure Stream where
  place : Place
  flow : Nat := 0
  indent : Int := -1
  indents : List Int := []
  keyAllowed : Bool := true
  keys : List (Nat × SimpleKey) := []
  tokens : List Token := []
  taken : Nat := 0
  /-- The length of the whole text. -/
  length : Nat := 0
  /-- Whether the end of the text is reached. -/
  ended : Bool := false
  deriving DecidableEq, Repr

namespace Stream

def ofChars (cs : List Char) : Stream := { place := .start cs, length := cs.length }

def inFlow (s : Stream) : Bool := s.flow != 0

def emit (s : Stream) (t : Token) : Stream := { s with tokens := s.tokens ++ [t] }

def skip (s : Stream) (n : Nat) : Stream := { s with place := s.place.advanceBy n }

def moveTo (s : Stream) (rest : List Char) : Stream := { s with place := s.place.moveTo rest }

/-! ## Simple keys -/

/-- Forgets keys that can no longer be simple. -/
def dropStaleKeys (s : Stream) : Except Fault Stream :=
  let stale := fun (k : SimpleKey) =>
    k.line != s.place.line || decide (k.index + 1024 < s.place.index)
  if s.keys.any fun k => stale k.2 && k.2.required then .error .malformed
  else .ok { s with keys := s.keys.filter fun k => !stale k.2 }

/-- Forgets the possible key of the current flow level. -/
def dropKey (s : Stream) : Except Fault Stream :=
  match s.keys.lookup s.flow with
  | none => .ok s
  | some k =>
    if k.required then .error .malformed
    else .ok { s with keys := s.keys.filter fun k => k.1 != s.flow }

/-- Remembers that the next token may start a simple key. -/
def saveKey (s : Stream) : Except Fault Stream :=
  if s.keyAllowed then do
    let s ← s.dropKey
    let key : SimpleKey :=
      { tokens := s.taken + s.tokens.length
        required := !s.inFlow && s.indent == (s.place.column : Int)
        index := s.place.index
        line := s.place.line
        column := s.place.column }
    return { s with keys := (s.flow, key) :: s.keys }
  else .ok s

/-! ## Indentation -/

/-- Closes the block collections that are indented deeper than a column. -/
def unwindFrom (column indent : Int) (ended : Nat) : List Int → Int × List Int × Nat
  | [] => if column < indent then (-1, [], ended + 1) else (indent, [], ended)
  | i :: is =>
    if column < indent then unwindFrom column i (ended + 1) is else (indent, i :: is, ended)

def unwind (s : Stream) (column : Int) : Stream :=
  if s.inFlow then s
  else
    let (indent, indents, ended) := unwindFrom column s.indent 0 s.indents
    { s with indent, indents, tokens := s.tokens ++ List.replicate ended .blockEnd }

/-- Opens a block collection if the column lies deeper than the current indentation. -/
def openBlock (s : Stream) (column : Nat) : Stream × Bool :=
  if s.indent < column then
    ({ s with indents := s.indent :: s.indents, indent := column }, true)
  else (s, false)

/-! ## Single tokens -/

/-- Skips blanks, comments and line breaks; tells whether a line break was among them. -/
def skipGap (inComment : Bool) : List Char → Bool × List Char
  | [] => (false, [])
  | c :: cs =>
    if isBreak c then (true, (skipGap false cs).2)
    else if inComment then skipGap true cs
    else if c == ' ' then skipGap false cs
    else if c == '#' then skipGap true cs
    else (false, c :: cs)

/-- Moves on to the next token. A byte order mark at the very start is skipped, and a line
break allows a simple key in block context. -/
def toNextToken (s : Stream) : Stream :=
  let s := if s.place.index = 0 && s.place.rest.head? == some byteOrderMark then s.skip 1 else s
  let (broken, rest) := skipGap false s.place.rest
  { s.moveTo rest with keyAllowed := s.keyAllowed || (broken && !s.inFlow) }

def directive (s : Stream) : Except Fault Stream := do
  let s ← (s.unwind (-1)).dropKey
  let (d, rest) ← readDirective (s.place.rest.drop 1)
  return ({ s with keyAllowed := false }.moveTo rest).emit (.directive d)

def documentMark (t : Token) (s : Stream) : Except Fault Stream := do
  let s ← (s.unwind (-1)).dropKey
  return ({ s with keyAllowed := false }.skip 3).emit t

def flowStart (t : Token) (s : Stream) : Except Fault Stream := do
  let s ← s.saveKey
  return ({ s with flow := s.flow + 1, keyAllowed := true }.skip 1).emit t

/-- A closing bracket without an opening one is refused. -/
def flowEnd (t : Token) (s : Stream) : Except Fault Stream := do
  let s ← s.dropKey
  if s.flow = 0 then .error .malformed
  return ({ s with flow := s.flow - 1, keyAllowed := false }.skip 1).emit t

def flowEntry (s : Stream) : Except Fault Stream := do
  let s ← { s with keyAllowed := true }.dropKey
  return (s.skip 1).emit .flowEntry

/-- Opens a block collection for an indicator that stands where a simple key might. -/
def openFor (t : Token) (s : Stream) : Except Fault Stream :=
  if s.inFlow then .ok s
  else if !s.keyAllowed then .error .malformed
  else
    let (s, opened) := s.openBlock s.place.column
    .ok (if opened then s.emit t else s)

def blockEntry (s : Stream) : Except Fault Stream := do
  let s ← s.openFor .blockSequenceStart
  let s ← { s with keyAllowed := true }.dropKey
  return (s.skip 1).emit .blockEntry

def explicitKey (s : Stream) : Except Fault Stream := do
  let s ← s.openFor .blockMappingStart
  let s ← { s with keyAllowed := !s.inFlow }.dropKey
  return (s.skip 1).emit .key

/-- Puts a token in front of the tokens from a number on. -/
def insertAt (n : Nat) (t : Token) (ts : List Token) : List Token := ts.take n ++ t :: ts.drop n

/-- A colon: the possible key of this flow level is one, or the value has an explicit key. -/
def value (s : Stream) : Except Fault Stream := do
  match s.keys.lookup s.flow with
  | some k =>
    let s := { s with
      keys := s.keys.filter fun k => k.1 != s.flow
      tokens := insertAt (k.tokens - s.taken) .key s.tokens
      keyAllowed := false }
    let (s, opened) := if s.inFlow then (s, false) else s.openBlock k.column
    let s :=
      if opened then
        { s with tokens := insertAt (k.tokens - s.taken) .blockMappingStart s.tokens }
      else s
    return (s.skip 1).emit .value
  | none =>
    let s ← s.openFor .blockMappingStart
    let s := { s with keyAllowed := !s.inFlow }
    return (s.skip 1).emit .value

/-- A token that may be a simple key, read from the characters after its indicator. -/
def nodeToken {α : Type} (read : List Char → Read α) (token : α → Token) (s : Stream) :
    Except Fault Stream := do
  let s ← s.saveKey
  let (a, rest) ← read (s.place.rest.drop 1)
  return ({ s with keyAllowed := false }.moveTo rest).emit (token a)

def blockScalar (folded : Bool) (s : Stream) : Except Fault Stream := do
  let s ← { s with keyAllowed := true }.dropKey
  let (chars, rest) ← readBlock folded s.indent (s.place.rest.drop 1)
  return (s.moveTo rest).emit (.scalar (codePoints chars) false)

/-- The runs of a plain scalar and the gaps between them: the content, the place after it, and
whether the last gap reached into a new line. -/
def plainRuns (inFlow : Bool) (indent : Int) :
    Nat → List Char → Place → Bool → List Char × Place × Bool
  | 0, _, p, broken => ([], p, broken)
  | fuel + 1, gap, p, broken =>
    if p.rest.head? == some '#' then ([], p, broken)
    else
      let run := plainRun inFlow p.rest
      if run.isEmpty then ([], p, broken)
      else
        let g := plainGap (p.rest.drop run.length)
        let after := p.moveTo g.rest
        let ends :=
          match g.fill with
          | none => true
          | some fill => fill.isEmpty || (!inFlow && decide ((after.column : Int) < indent))
        if ends then (gap ++ run, after, g.broken)
        else
          let (content, p, broken) := plainRuns inFlow indent fuel (g.fill.getD []) after g.broken
          (gap ++ run ++ content, p, broken)

def plain (s : Stream) : Except Fault Stream := do
  let s ← s.saveKey
  let (chars, p, broken) :=
    plainRuns s.inFlow (s.indent + 1) (s.place.rest.length + 1) [] s.place false
  return { s with place := p, keyAllowed := broken }.emit (.scalar (codePoints chars) true)

/-- The characters that cannot start a plain scalar by themselves. -/
def isIndicator (c : Char) : Bool := "-?:,[]\x7b\x7d#&*!|>'\"%@`".toList.contains c

def startsPlain (inFlow : Bool) (c : Char) (after : Option Char) : Bool :=
  !(endsWord (some c) || isIndicator c) ||
    (!endsWord after && (c == '-' || (!inFlow && (c == '?' || c == ':'))))

/-- Reads the next token at its first character. -/
def token (c : Char) (s : Stream) : Except Fault Stream :=
  let after := (s.place.rest.drop 1).head?
  let atLineStart := s.place.column == 0
  if c == '%' && atLineStart then s.directive
  else if atLineStart && startsMark documentStart s.place.rest then s.documentMark .documentStart
  else if atLineStart && startsMark documentEnd s.place.rest then s.documentMark .documentEnd
  else if c == '[' then s.flowStart .flowSequenceStart
  else if c == '\x7b' then s.flowStart .flowMappingStart
  else if c == ']' then s.flowEnd .flowSequenceEnd
  else if c == '\x7d' then s.flowEnd .flowMappingEnd
  else if c == ',' then s.flowEntry
  else if c == '-' && endsWord after then s.blockEntry
  else if c == '?' && (s.inFlow || endsWord after) then s.explicitKey
  else if c == ':' && (s.inFlow || endsWord after) then s.value
  else if c == '*' then s.nodeToken readName .alias
  else if c == '&' then s.nodeToken readName .anchor
  else if c == '!' then s.nodeToken readTag fun t => .tag t.1 t.2
  else if c == '|' && !s.inFlow then s.blockScalar false
  else if c == '>' && !s.inFlow then s.blockScalar true
  else if c == '\'' then
    s.nodeToken (fun cs => readSingle (cs.length + 1) cs) fun t => .scalar (codePoints t) false
  else if c == '"' then
    s.nodeToken (fun cs => readDouble (cs.length + 1) cs) fun t => .scalar t false
  else if startsPlain s.inFlow c after then s.plain
  else .error .malformed

/-- Reads on: the next token, or the end of the text. -/
def more (s : Stream) : Except Fault Stream := do
  let s ← s.toNextToken.dropStaleKeys
  let s := s.unwind s.place.column
  match s.place.rest with
  | [] =>
    let s ← (s.unwind (-1)).dropKey
    return { s with keyAllowed := false, keys := [], ended := true }
  | c :: _ => s.token c

/-- Reads on until the next token is certain. Every token takes at least one character, so that
the length of the text bounds their number. -/
def settleWithin : Nat → Stream → Except Fault Stream
  | 0, s => .ok s
  | fuel + 1, s =>
    if s.ended then .ok s
    else if s.tokens.isEmpty then do settleWithin fuel (← s.more)
    else do
      let s ← s.dropStaleKeys
      if s.keys.any fun k => k.2.tokens == s.taken then settleWithin fuel (← s.more) else .ok s

def settle (s : Stream) : Except Fault Stream := s.settleWithin (s.length + 1)

/-- Takes the next token away. -/
def take (s : Stream) : Stream := { s with tokens := s.tokens.drop 1, taken := s.taken + 1 }

end Stream

end Flowchart.Yaml

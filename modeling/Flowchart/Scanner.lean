import Flowchart.Diagnostic
import Flowchart.Source

/-!
# Scanning

A line is read from left to right. Blanks and commas separate lexemes and
leave no token; a run of digits is a number, a run of letters an identifier, a
text between double quotes a string. Nothing but blanks may follow a closing
parenthesis on its line.

`next` reads one lexeme, `scan` a whole text; `Scanner` holds a text that is
read step by step.
-/

namespace Flowchart

/-- The characters that may follow a closing parenthesis. -/
def isBlank (c : Char) : Bool := c == ' ' || c == '\t' || c == '\n'

/-- What reading at one place gives: the text left, the token found, and the fault met.
A fault may come with a token: a closing parenthesis counts even when its line goes on. -/
structure Lexed where
  rest : List Char
  token : Option (Kind × List Char) := none
  fault : Option Cause := none
  deriving DecidableEq, Repr

/-- Requires that only blanks are left. The character in the way is read. -/
def readTrailing (cs : List Char) : Lexed :=
  match cs.dropWhile isBlank with
  | [] => { rest := [] }
  | c :: rest => { rest := rest, fault := some (.trailingCharacter c) }

/-- Reads the content of a string and its closing quote. -/
def readString (cs : List Char) : Lexed :=
  match cs.dropWhile (· != '"') with
  | [] => { rest := [], fault := some .unterminatedString }
  | _ :: rest => { rest := rest, token := some (.string, cs.takeWhile (· != '"')) }

/-- Reads one lexeme, or skips one separator. -/
def next : List Char → Lexed
  | [] => { rest := [], fault := some (.strayCharacter none) }
  | c :: cs =>
    if c == '(' then { rest := cs, token := some (.openParen, [c]) }
    else if c == ')' then { readTrailing cs with token := some (.closeParen, [c]) }
    else if isBlank c || c == ',' then { rest := cs }
    else if c.isDigit then
      { rest := cs.dropWhile Char.isDigit, token := some (.number, c :: cs.takeWhile Char.isDigit) }
    else if c.isAlpha then
      { rest := cs.dropWhile Char.isAlpha,
        token := some (.identifier, c :: cs.takeWhile Char.isAlpha) }
    else if c == '"' then readString cs
    else { rest := c :: cs, fault := some (.strayCharacter (some c)) }

theorem length_dropWhile_le (p : Char → Bool) (cs : List Char) :
    (cs.dropWhile p).length ≤ cs.length :=
  (List.dropWhile_sublist p).length_le

theorem length_rest_readTrailing (cs : List Char) : (readTrailing cs).rest.length ≤ cs.length := by
  have h := length_dropWhile_le isBlank cs
  unfold readTrailing
  split
  · simp
  · rename_i hd
    rw [hd] at h
    simp only [List.length_cons] at h
    simp only
    omega

theorem length_rest_readString (cs : List Char) : (readString cs).rest.length ≤ cs.length := by
  have h := length_dropWhile_le (· != '"') cs
  unfold readString
  split
  · simp
  · rename_i hd
    rw [hd] at h
    simp only [List.length_cons] at h
    simp only
    omega

/-- Reading without a fault uses up at least one character. -/
theorem length_rest_next {cs : List Char} (h : (next cs).fault = none) :
    (next cs).rest.length < cs.length := by
  cases cs with
  | nil => simp [next] at h
  | cons c cs =>
    have h1 := length_rest_readTrailing cs
    have h2 := length_rest_readString cs
    have h3 := length_dropWhile_le Char.isDigit cs
    have h4 := length_dropWhile_le Char.isAlpha cs
    simp only [next] at h ⊢
    repeat' split
    all_goals simp_all only [List.length_cons]
    all_goals first
      | omega
      | simp_all

/-- The tokens of a text, the text left, and the fault that stopped the reading. -/
structure Scan where
  tokens : List Token
  rest : List Char
  fault : Option Cause
  deriving DecidableEq, Repr

/-- The token of a step, placed on a line. -/
def Lexed.emitted (line : Int) (s : Lexed) : List Token :=
  match s.token with
  | none => []
  | some (kind, value) => [⟨kind, String.ofList value, line⟩]

/-- Reads a text to its end or to the first fault. -/
def scan (line : Int) (cs : List Char) : Scan :=
  if cs.isEmpty then ⟨[], [], none⟩
  else
    let s := next cs
    match _ : s.fault with
    | none =>
      let r := scan line s.rest
      { r with tokens := s.emitted line ++ r.tokens }
    | some cause => ⟨s.emitted line, s.rest, some cause⟩
termination_by cs.length
decreasing_by exact length_rest_next ‹_›

/-- The tokens of a line. -/
def tokenize (l : SourceLine) : Except Diagnostic (List Token) :=
  let r := scan l.number l.text.toList
  match r.fault with
  | none => .ok r.tokens
  | some cause => .error ⟨l.number, cause⟩

/-- The tokens of all lines in order, up to the first line with a fault. -/
def tokenizeLines : List SourceLine → Except Diagnostic (List Token)
  | [] => .ok []
  | l :: ls => do
    let ts ← tokenize l
    let us ← tokenizeLines ls
    return ts ++ us

/-! ## Reading step by step -/

/-- A line that is being read: its whole text, the text left, and the tokens found so far. -/
structure Scanner where
  line : Int
  text : List Char
  rest : List Char
  tokens : List Token
  deriving DecidableEq, Repr

/-- Why a step of a scanner did not succeed. -/
inductive Scanner.Failure where
  | pastEnd
  | diagnostic (d : Diagnostic)
  deriving DecidableEq, Repr

namespace Scanner

def Failure.message : Failure → String
  | pastEnd => "string index out of range"
  | diagnostic d => d.message

def start (l : SourceLine) : Scanner := ⟨l.number, l.text.toList, l.text.toList, []⟩

/-- The number of characters read. -/
def position (s : Scanner) : Nat := s.text.length - s.rest.length

def atEnd (s : Scanner) : Bool := s.rest.isEmpty

def current? (s : Scanner) : Option Char := s.rest.head?

/-- Reads one character. -/
def advance (s : Scanner) : Except Failure Char × Scanner :=
  match s.rest with
  | [] => (.error .pastEnd, s)
  | c :: cs => (.ok c, { s with rest := cs })

/-- Reads the longest run of allowed characters. -/
def run (allowed : List Char) (s : Scanner) : List Char × Scanner :=
  (s.rest.takeWhile allowed.contains, { s with rest := s.rest.dropWhile allowed.contains })

/-- Moves on by what a reading step gave. -/
def apply (s : Scanner) (r : Lexed) : Except Failure Unit × Scanner :=
  (match r.fault with
    | none => .ok ()
    | some cause => .error (.diagnostic ⟨s.line, cause⟩),
   { s with rest := r.rest, tokens := s.tokens ++ r.emitted s.line })

def token (s : Scanner) : Except Failure Unit × Scanner := s.apply (next s.rest)

def trailing (s : Scanner) : Except Failure Unit × Scanner := s.apply (readTrailing s.rest)

/-- Reads a string, whatever its first character is. -/
def string (s : Scanner) : Except Failure Unit × Scanner :=
  match s.rest with
  | [] => (.error .pastEnd, s)
  | _ :: cs => s.apply (readString cs)

/-- Reads to the end of the line. -/
def all (s : Scanner) : Except Failure (List Token) × Scanner :=
  let r := scan s.line s.rest
  let s' := { s with rest := r.rest, tokens := s.tokens ++ r.tokens }
  match r.fault with
  | none => (.ok s'.tokens, s')
  | some cause => (.error (.diagnostic ⟨s.line, cause⟩), s')

end Scanner

end Flowchart

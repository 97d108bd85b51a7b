import Flowchart.Diagnostic
import Flowchart.Scanner

/-!
# Parsing

The tokens of a document are read from left to right. An identifier opens a
call, which must be complete: an opening parenthesis, the parameters that the
call's signature asks for, and a closing parenthesis. Tokens between calls
that are no identifiers are passed over.

Every reading function takes the tokens left and gives the tokens left after
it, also when it fails, so that a `Cursor` can go on from there.
-/

namespace Flowchart

/-- A result together with the tokens left. -/
abbrev Reading (α : Type) := Except Diagnostic α × List Token

/-- Reads parameters up to, and not including, the closing parenthesis of the call `name`. -/
def readParameters (name : Token) (ts : List Token) : Reading (List Token) :=
  let rest := ts.dropWhile (·.kind.isParameter)
  match rest with
  | [] => (.error ⟨name.line, .unterminatedCall name.value⟩, rest)
  | t :: _ =>
    if t.kind = .closeParen then (.ok (ts.takeWhile (·.kind.isParameter)), rest)
    else (.error ⟨t.line, .unexpectedParameter name.value t.kind t.value⟩, rest)

/-- Reads the closing parenthesis of the call `name`. -/
def readClose (name : Token) (ts : List Token) : Reading Unit :=
  match ts with
  | [] => (.error ⟨name.line, .expectedClose name.value none⟩, ts)
  | t :: rest =>
    if t.kind = .closeParen then (.ok (), rest)
    else (.error ⟨t.line, .expectedClose name.value (some t.value)⟩, ts)

/-- The first parameter whose kind is not the one expected, if any. -/
def wrongKind? (name : CallName) (index : Nat) : List Token → List Kind → Option Cause
  | t :: ts, k :: ks =>
    if t.kind = k then wrongKind? name (index + 1) ts ks
    else some (.wrongKind name index k t.kind t.value)
  | _, _ => none

/-- Why parameters do not fit the signature of a call, if they do not. -/
def misfit? (name : CallName) (params : List Token) : Option Cause :=
  if params.length = name.signature.length then wrongKind? name 0 params name.signature
  else some (.wrongCount name params.length)

/-- Reads the rest of the call that the identifier `name` opens. -/
def readCall (name : Token) (ts : List Token) : Reading Statement :=
  match CallName.ofText? name.value with
  | none => (.error ⟨name.line, .unknownCall name.value⟩, ts)
  | some call =>
    match ts with
    | [] => (.error ⟨name.line, .expectedOpen name.value none⟩, ts)
    | t :: rest =>
      if t.kind = .openParen then
        match readParameters name rest with
        | (.error d, left) => (.error d, left)
        | (.ok params, left) =>
          match readClose name left with
          | (.error d, left) => (.error d, left)
          | (.ok (), left) =>
            match misfit? call params with
            | some cause => (.error ⟨name.line, cause⟩, left)
            | none => (.ok ⟨.call call, name.line, params⟩, left)
      else (.error ⟨t.line, .expectedOpen name.value (some t.value)⟩, ts)

theorem length_readParameters (name : Token) (ts : List Token) :
    (readParameters name ts).2.length ≤ ts.length := by
  have h : (ts.dropWhile (·.kind.isParameter)).length ≤ ts.length :=
    (List.dropWhile_sublist _).length_le
  unfold readParameters
  dsimp only
  split
  · exact h
  · split <;> exact h

theorem length_readClose (name : Token) (ts : List Token) :
    (readClose name ts).2.length ≤ ts.length := by
  unfold readClose
  split
  · simp
  · split <;> simp

/-- Reading a call never gives tokens back. -/
theorem length_readCall (name : Token) (ts : List Token) :
    (readCall name ts).2.length ≤ ts.length := by
  unfold readCall
  split
  · simp
  · split
    · simp
    · rename_i rest
      have h := length_readParameters name rest
      split
      · split
        · rename_i hp
          rw [hp] at h
          exact Nat.le_succ_of_le h
        · rename_i left hp
          rw [hp] at h
          have hc := length_readClose name left
          split
          · rename_i hq
            rw [hq] at hc
            simp only [List.length_cons] at hc h ⊢
            omega
          · rename_i hq
            rw [hq] at hc
            split <;> (simp only [List.length_cons] at hc h ⊢; omega)
      · simp

/-- Reads all calls that are left. -/
def readAll (ts : List Token) : Reading (List Statement) :=
  match ts with
  | [] => (.ok [], [])
  | t :: rest =>
    if t.kind = .identifier then
      match _ : readCall t rest with
      | (.error d, left) => (.error d, left)
      | (.ok s, left) =>
        match readAll left with
        | (.error d, left) => (.error d, left)
        | (.ok ss, left) => (.ok (s :: ss), left)
    else readAll rest
termination_by ts.length
decreasing_by
  · have hl := length_readCall t rest
    rw [‹readCall t rest = _›] at hl
    exact Nat.lt_succ_of_le hl
  · simp

/-- The statements of a token stream. -/
def parse (ts : List Token) : Except Diagnostic (List Statement) := (readAll ts).1

/-- The statements of a document. -/
def parseLines (ls : List SourceLine) : Except Diagnostic (List Statement) :=
  tokenizeLines ls >>= parse

/-! ## Reading step by step -/

/-- A token stream that is being read, and the tokens left of it. -/
structure Cursor where
  tokens : List Token
  rest : List Token
  deriving DecidableEq, Repr

/-- Why a step of a cursor did not succeed. -/
inductive Cursor.Failure where
  | pastEnd
  | diagnostic (d : Diagnostic)
  deriving DecidableEq, Repr

namespace Cursor

def Failure.message : Failure → String
  | pastEnd => "list index out of range"
  | diagnostic d => d.message

def start (ts : List Token) : Cursor := ⟨ts, ts⟩

/-- The number of tokens read. -/
def position (c : Cursor) : Nat := c.tokens.length - c.rest.length

def atEnd (c : Cursor) : Bool := c.rest.isEmpty

def current? (c : Cursor) : Option Token := c.rest.head?

/-- Reads one token. -/
def advance (c : Cursor) : Except Failure Token × Cursor :=
  match c.rest with
  | [] => (.error .pastEnd, c)
  | t :: ts => (.ok t, { c with rest := ts })

/-- Reads with a reading function. -/
def apply {α : Type} (c : Cursor) (r : Reading α) : Except Failure α × Cursor :=
  (r.1.mapError .diagnostic, { c with rest := r.2 })

def call (name : Token) (c : Cursor) : Except Failure Statement × Cursor :=
  c.apply (readCall name c.rest)

def parameters (name : Token) (c : Cursor) : Except Failure (List Token) × Cursor :=
  c.apply (readParameters name c.rest)

def close (name : Token) (c : Cursor) : Except Failure Unit × Cursor :=
  c.apply (readClose name c.rest)

def all (c : Cursor) : Except Failure (List Statement) × Cursor :=
  c.apply (readAll c.rest)

end Cursor

end Flowchart

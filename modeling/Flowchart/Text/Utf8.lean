import Flowchart.Text.Quoted

/-!
# UTF-8

Files hold bytes; their text is the UTF-8 reading of them. Reading is strict:
it stops at the first bytes that encode no character and says which and why.
-/

namespace Flowchart.Text

/-- Why bytes are no UTF-8. -/
inductive Utf8Reason where
  | invalidStart
  | invalidContinuation
  | unexpectedEnd
  deriving DecidableEq, Repr

/-- The bytes in the way: the first one and its position, and how many belong to the fault. -/
structure Utf8Fault where
  byte : UInt8
  position : Nat
  length : Nat
  reason : Utf8Reason
  deriving DecidableEq, Repr

def Utf8Reason.message : Utf8Reason → String
  | invalidStart => "invalid start byte"
  | invalidContinuation => "invalid continuation byte"
  | unexpectedEnd => "unexpected end of data"

def Utf8Fault.message (f : Utf8Fault) : String :=
  "'utf-8' codec can't decode " ++
    (if f.length = 1 then
      "byte 0x" ++ String.ofList (hexPadded 2 f.byte.toNat) ++ s!" in position {f.position}"
    else s!"bytes in position {f.position}-{f.position + f.length - 1}") ++
    ": " ++ f.reason.message

/-- The shape of a sequence by its first byte: the number of bytes that follow, the bits that
the first byte gives, and the range that the second byte must lie in. -/
structure Utf8Lead where
  more : Nat
  bits : Nat
  low : Nat
  high : Nat

/-- A first byte of a sequence of two bytes or more. -/
def utf8Lead? (b : Nat) : Option Utf8Lead :=
  if 0xc2 ≤ b && b ≤ 0xdf then some ⟨1, b - 0xc0, 0x80, 0xbf⟩
  else if b = 0xe0 then some ⟨2, 0, 0xa0, 0xbf⟩
  else if b = 0xed then some ⟨2, 0xd, 0x80, 0x9f⟩
  else if 0xe1 ≤ b && b ≤ 0xef then some ⟨2, b - 0xe0, 0x80, 0xbf⟩
  else if b = 0xf0 then some ⟨3, 0, 0x90, 0xbf⟩
  else if 0xf1 ≤ b && b ≤ 0xf3 then some ⟨3, b - 0xf0, 0x80, 0xbf⟩
  else if b = 0xf4 then some ⟨3, 4, 0x80, 0x8f⟩
  else none

/-- Reads the bytes that follow a first byte: the code so far, the number still to come, and
the range of the next one. On a fault, the number of good bytes read and the reason. -/
def utf8Tail (more code low high : Nat) :
    List UInt8 → Except (Nat × Utf8Reason) (Nat × List UInt8)
  | bs =>
    match more with
    | 0 => .ok (code, bs)
    | more + 1 =>
      match bs with
      | [] => .error (0, .unexpectedEnd)
      | b :: rest =>
        if low ≤ b.toNat && b.toNat ≤ high then
          match utf8Tail more (code * 64 + b.toNat % 64) 0x80 0xbf rest with
          | .error (n, reason) => .error (n + 1, reason)
          | .ok r => .ok r
        else .error (0, .invalidContinuation)

/-- Reads one character at a position. -/
def utf8Char (position : Nat) (b : UInt8) (bs : List UInt8) :
    Except Utf8Fault (Char × List UInt8) :=
  if b.toNat < 0x80 then .ok (Char.ofNat b.toNat, bs)
  else
    match utf8Lead? b.toNat with
    | none => .error ⟨b, position, 1, .invalidStart⟩
    | some lead =>
      match utf8Tail lead.more lead.bits lead.low lead.high bs with
      | .error (n, reason) => .error ⟨b, position, n + 1, reason⟩
      | .ok (code, rest) => .ok (Char.ofNat code, rest)

theorem length_utf8Tail {more code low high : Nat} {bs rest : List UInt8} {c : Nat}
    (h : utf8Tail more code low high bs = .ok (c, rest)) : rest.length ≤ bs.length := by
  induction more generalizing code low high bs with
  | zero =>
    simp only [utf8Tail, Except.ok.injEq, Prod.mk.injEq] at h
    exact Nat.le_of_eq (by rw [h.2])
  | succ more ih =>
    unfold utf8Tail at h
    dsimp only at h
    split at h
    · simp at h
    · split at h
      · split at h
        · simp at h
        · rename_i hr
          rw [h] at hr
          exact Nat.le_succ_of_le (ih hr)
      · simp at h

theorem length_utf8Char {position : Nat} {b : UInt8} {bs rest : List UInt8} {c : Char}
    (h : utf8Char position b bs = .ok (c, rest)) : rest.length ≤ bs.length := by
  unfold utf8Char at h
  split at h
  · simp only [Except.ok.injEq, Prod.mk.injEq] at h
    exact Nat.le_of_eq (by rw [h.2])
  · split at h
    · simp at h
    · split at h
      · simp at h
      · rename_i ht
        simp only [Except.ok.injEq, Prod.mk.injEq] at h
        rw [← h.2]
        exact length_utf8Tail ht

/-- Reads bytes that start at a position. -/
def utf8From (position : Nat) : List UInt8 → Except Utf8Fault (List Char)
  | [] => .ok []
  | b :: bs =>
    match _ : utf8Char position b bs with
    | .error f => .error f
    | .ok (c, rest) => (utf8From (position + (bs.length + 1 - rest.length)) rest).map (c :: ·)
termination_by bs => bs.length
decreasing_by exact Nat.lt_succ_of_le (length_utf8Char ‹_›)

/-- The text of bytes. -/
def decodeUtf8 (bs : List UInt8) : Except Utf8Fault (List Char) := utf8From 0 bs

/-- The bytes of a text. -/
def encodeUtf8 (s : String) : List UInt8 := s.toUTF8.toList

end Flowchart.Text

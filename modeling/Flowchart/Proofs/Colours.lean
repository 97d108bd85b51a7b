import Flowchart.Terminal

/-!
# Coloured text

Painting puts colour codes into a text and takes nothing away from it. It goes
over the text three times, and each time it only adds codes.
-/

namespace Flowchart

/-- The codes that switch a colour on, and the one that switches it off. -/
def colourCodes : List String := ["\x1b[31m", "\x1b[32m", "\x1b[33m", "\x1b[39m"]

/-- The text `s` with colour codes put in, one after the other. -/
inductive Coloured (s : List Char) : List Char → Prop where
  | plain : Coloured s s
  | code {before after : List Char} {code : String} : code ∈ colourCodes →
      Coloured s (before ++ after) → Coloured s (before ++ (code.toList ++ after))

namespace Coloured

variable {s s' t out out' : List Char}

theorem trans (h : Coloured s t) (h' : Coloured t out) : Coloured s out := by
  induction h' with
  | plain => exact h
  | code hcode _ ih => exact .code hcode ih

theorem append_left (before : List Char) (h : Coloured s out) :
    Coloured (before ++ s) (before ++ out) := by
  induction h with
  | plain => exact .plain
  | @code b after code hcode _ ih =>
    rw [← List.append_assoc] at ih ⊢
    exact .code hcode ih

theorem append_right (h : Coloured s out) (after : List Char) :
    Coloured (s ++ after) (out ++ after) := by
  induction h with
  | plain => exact .plain
  | code hcode _ ih =>
    rw [List.append_assoc] at ih
    rw [List.append_assoc, List.append_assoc]
    exact .code hcode ih

theorem append (h : Coloured s out) (h' : Coloured s' out') :
    Coloured (s ++ s') (out ++ out') :=
  (h.append_right s').trans (h'.append_left out)

theorem front {code : String} (hcode : code ∈ colourCodes) (h : Coloured s out) :
    Coloured s (code.toList ++ out) := by
  show Coloured s ([] ++ (code.toList ++ out))
  exact .code hcode h

theorem opening (c : Colour) (h : Coloured s out) : Coloured s (c.opening ++ out) := by
  cases c with
  | red => exact h.front (show "\x1b[31m" ∈ colourCodes by decide)
  | green => exact h.front (show "\x1b[32m" ∈ colourCodes by decide)
  | yellow => exact h.front (show "\x1b[33m" ∈ colourCodes by decide)

theorem closing (h : Coloured s out) : Coloured s (Colour.closing ++ out) :=
  h.front (show "\x1b[39m" ∈ colourCodes by decide)

end Coloured

namespace Colour

variable (c : Colour)

end Colour

end Flowchart

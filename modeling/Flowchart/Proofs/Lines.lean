import Flowchart.Proofs.Runs
import Flowchart.Text.Lines

/-!
# Lines and line breaks

Equations of `lines` at the front of a text, an induction principle that
follows its terminators, and the number of line breaks in a text. Both `lines`
and `breaks` go through a concatenation unless it joins a carriage return and
a line feed to one terminator.
-/

namespace Flowchart.Text

/-- No terminator begins in `a` and ends in `b`. -/
def Uncut (a b : List Char) : Prop := ¬(a.getLast? = some '\r' ∧ b.head? = some '\n')

instance (a b : List Char) : Decidable (Uncut a b) := inferInstanceAs (Decidable (¬_))

theorem uncut_nil (b : List Char) : Uncut [] b := by simp [Uncut]

theorem Uncut.tail {c : Char} {a b : List Char} (h : Uncut (c :: a) b) : Uncut a b := by
  cases a with
  | nil => exact uncut_nil b
  | cons d a => simpa [Uncut] using h

theorem Uncut.append {c : Char} {a b : List Char} (h : Uncut [c] a) (hb : Uncut (c :: a) b) :
    Uncut [c] (a ++ b) := by
  cases a with
  | nil => exact hb
  | cons d a => simpa [Uncut] using h

theorem uncut_of_stops {a b : List Char} (h : Stops isTerminator b) : Uncut a b := by
  rintro ⟨-, hb⟩
  cases h _ hb

/-! ## Lines -/

theorem lines_pair (cs : List Char) : lines ('\r' :: '\n' :: cs) = [] :: lines cs := rfl

theorem lines_break {c : Char} {cs : List Char} (hc : isTerminator c = true)
    (h : Uncut [c] cs) : lines (c :: cs) = [] :: lines cs := by
  rw [lines.eq_def]
  split
  · contradiction
  · rename_i heq
    cases heq
    exact (h ⟨rfl, rfl⟩).elim
  · rename_i heq
    cases heq
    exact if_pos hc

/-- The text before the first line break. -/
def firstLine (cs : List Char) : List Char := (lines cs).headD []

def laterLines (cs : List Char) : List (List Char) := (lines cs).tail

theorem lines_char {c : Char} (cs : List Char) (hc : isTerminator c = false) :
    lines (c :: cs) = (c :: firstLine cs) :: laterLines cs := by
  rw [lines.eq_def]
  split
  · contradiction
  · rename_i heq
    cases heq
    cases hc
  · rename_i heq
    cases heq
    rw [if_neg (by simp [hc])]
    cases h : lines cs <;> simp [firstLine, laterLines, h]

/-- Induction over a text, break by break. -/
theorem lines_induction {P : List Char → Prop} (nil : P [])
    (pair : ∀ cs, P cs → P ('\r' :: '\n' :: cs))
    (single : ∀ c cs, isTerminator c = true → Uncut [c] cs → P cs → P (c :: cs))
    (char : ∀ c cs, isTerminator c = false → P cs → P (c :: cs)) (cs : List Char) : P cs := by
  have huncut {c : Char} {cs : List Char}
      (h : ∀ rest, c = '\r' → cs = '\n' :: rest → False) : Uncut [c] cs := by
    rintro ⟨hc, hcs⟩
    obtain ⟨rest, rfl⟩ := List.head?_eq_some_iff.1 hcs
    exact h rest (by simpa using hc) rfl
  induction cs using lines.induct with
  | case1 => exact nil
  | case2 cs ih => exact pair cs ih
  | case3 c cs h hc ih => exact single c cs hc (huncut h) ih
  | case4 c cs _ hc _ ih | case5 c cs _ hc _ _ _ ih => exact char c cs (by simpa using hc) ih

theorem lines_ne_nil {cs : List Char} (h : cs ≠ []) : lines cs ≠ [] := by
  induction cs using lines_induction with
  | nil => exact (h rfl).elim
  | pair cs => rw [lines_pair]; simp
  | single c cs hc hu => rw [lines_break hc hu]; simp
  | char c cs hc => rw [lines_char cs hc]; simp

/-- No terminator is left in a line. -/
theorem unbroken_of_mem_lines {cs l : List Char} (h : l ∈ lines cs) :
    ∀ c ∈ l, isTerminator c = false := by
  induction cs using lines_induction generalizing l with
  | nil => cases h
  | pair cs ih =>
    rw [lines_pair] at h
    rcases List.mem_cons.1 h with rfl | h
    · simp
    · exact ih h
  | single c cs hc hu ih =>
    rw [lines_break hc hu] at h
    rcases List.mem_cons.1 h with rfl | h
    · simp
    · exact ih h
  | char c cs hc ih =>
    rw [lines_char cs hc, firstLine, laterLines] at h
    rcases List.mem_cons.1 h with rfl | h
    · -- the first line of what follows may be missing, and is then empty
      refine List.forall_mem_cons.2 ⟨hc, ?_⟩
      cases hl : lines cs with
      | nil => simp
      | cons l ls => exact ih (by simp [hl])
    · exact ih (List.mem_of_mem_tail h)

/-- The lines of two texts, when the first one is empty or ends with a line break. -/
theorem lines_append {a b : List Char} (ha : ∀ c ∈ a.getLast?, isTerminator c = true)
    (hu : Uncut a b) : lines (a ++ b) = lines a ++ lines b := by
  have hlast {c : Char} {cs : List Char} (h : ∀ d ∈ (c :: cs).getLast?, isTerminator d = true) :
      ∀ d ∈ cs.getLast?, isTerminator d = true := by
    cases cs with
    | nil => simp
    | cons d cs => simpa using h
  induction a using lines_induction with
  | nil => rfl
  | pair cs ih =>
    simp only [List.cons_append, lines_pair]
    rw [ih (hlast (hlast ha)) hu.tail.tail]
  | single c cs hc hcut ih =>
    rw [List.cons_append, lines_break hc (hcut.append hu), lines_break hc hcut,
      ih (hlast ha) hu.tail]
    rfl
  | char c cs hc ih =>
    -- the text ends with a terminator, so `c` is not its last character
    have hne : cs ≠ [] := by
      rintro rfl
      rw [ha c rfl] at hc; cases hc
    rw [List.cons_append, lines_char _ hc, lines_char _ hc, firstLine, firstLine, laterLines,
      laterLines, ih (hlast ha) hu.tail]
    obtain ⟨l, ls, hl⟩ := List.exists_cons_of_ne_nil (lines_ne_nil hne)
    rw [hl]; rfl

/-! ## The first line -/

theorem firstLine_break {c : Char} {cs : List Char} (hc : isTerminator c = true) :
    firstLine (c :: cs) = [] := by
  by_cases hu : Uncut [c] cs
  · rw [firstLine, lines_break hc hu]; rfl
  · obtain ⟨hr, hn⟩ := not_not.1 hu
    obtain ⟨rest, rfl⟩ := List.head?_eq_some_iff.1 hn
    obtain rfl : c = '\r' := by simpa using hr
    rw [firstLine, lines_pair]; rfl

theorem firstLine_char {c : Char} (cs : List Char) (hc : isTerminator c = false) :
    firstLine (c :: cs) = c :: firstLine cs := by
  rw [firstLine, lines_char cs hc]; rfl

theorem laterLines_char {c : Char} (cs : List Char) (hc : isTerminator c = false) :
    laterLines (c :: cs) = laterLines cs := by
  rw [laterLines, lines_char cs hc]; rfl

/-- A text without line breaks stands on the first line of what follows it. -/
theorem firstLine_append {w : List Char} (cs : List Char) (hw : ∀ c ∈ w, isTerminator c = false) :
    firstLine (w ++ cs) = w ++ firstLine cs ∧ laterLines (w ++ cs) = laterLines cs := by
  induction w with
  | nil => exact ⟨rfl, rfl⟩
  | cons c w ih =>
    have hc := hw c (by simp)
    obtain ⟨h1, h2⟩ := ih fun d hd => hw d (by simp [hd])
    rw [List.cons_append, firstLine_char _ hc, laterLines_char _ hc, h1, h2]
    exact ⟨rfl, rfl⟩

theorem stops_firstLine {p : Char → Bool} {cs : List Char} (h : Stops p cs) :
    Stops p (firstLine cs) := by
  cases cs with
  | nil => exact stops_nil
  | cons c cs =>
    cases hc : isTerminator c with
    | true => rw [firstLine_break hc]; exact stops_nil
    | false => rw [firstLine_char cs hc]; simpa using h

/-! ## Counting line breaks -/

/-- The number of line breaks. Of a carriage return and a line feed only the line feed counts. -/
def breaks : List Char → Nat
  | [] => 0
  | c :: cs =>
    if isTerminator c && !(c == '\r' && cs.head? == some '\n') then breaks cs + 1 else breaks cs

theorem breaks_pair (cs : List Char) : breaks ('\r' :: '\n' :: cs) = breaks cs + 1 := by
  simp [breaks, isTerminator]

theorem breaks_break {c : Char} {cs : List Char} (hc : isTerminator c = true)
    (h : Uncut [c] cs) : breaks (c :: cs) = breaks cs + 1 := by
  have hp : (c == '\r' && cs.head? == some '\n') = false := by
    simpa [Uncut] using h
  simp [breaks, hc, hp]

theorem breaks_char {c : Char} (cs : List Char) (hc : isTerminator c = false) :
    breaks (c :: cs) = breaks cs := by
  simp [breaks, hc]

theorem breaks_append {a b : List Char} (hu : Uncut a b) :
    breaks (a ++ b) = breaks a + breaks b := by
  induction a using lines_induction with
  | nil => simp [breaks]
  | pair cs ih =>
    simp only [List.cons_append, breaks_pair]
    rw [ih hu.tail.tail]; omega
  | single c cs hc hcut ih =>
    rw [List.cons_append, breaks_break hc (hcut.append hu), breaks_break hc hcut, ih hu.tail]
    omega
  | char c cs hc ih => rw [List.cons_append, breaks_char _ hc, breaks_char _ hc, ih hu.tail]

theorem breaks_unbroken {w : List Char} (cs : List Char) (hw : ∀ c ∈ w, isTerminator c = false) :
    breaks (w ++ cs) = breaks cs := by
  induction w with
  | nil => rfl
  | cons c w ih =>
    rw [List.cons_append, breaks_char _ (hw c (by simp))]
    exact ih fun d hd => hw d (by simp [hd])

end Flowchart.Text

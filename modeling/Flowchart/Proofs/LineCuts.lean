import Flowchart.Proofs.Lines
import Flowchart.Source

/-!
# Cutting a text into lines

A text is a sequence of pieces, each a line and what ends it. Nothing is lost
between the pieces, no line holds a terminator, and no terminator is cut in
two. A text has exactly one such cut, and its lines are those of `lines`.
-/

namespace Flowchart.Text

/-- What ends a line. -/
inductive IsBreak : List Char → Prop where
  | pair : IsBreak ['\r', '\n']
  | single {c : Char} : isTerminator c = true → IsBreak [c]

/-- A line and what ends it. -/
structure Piece where
  line : List Char
  ending : List Char
  deriving DecidableEq, Repr

/-- The text that pieces make up. -/
def joinPieces (ps : List Piece) : List Char := ps.flatMap fun p => p.line ++ p.ending

/-- The pieces are a cut of the text. -/
structure CutInto (cs : List Char) (ps : List Piece) : Prop where
  lossless : cs = joinPieces ps
  unbroken : ∀ p ∈ ps, ∀ c ∈ p.line, isTerminator c = false
  /-- Only the last line may lack its break, and only if it is not empty. -/
  ended : ∀ before p after, ps = before ++ p :: after →
    IsBreak p.ending ∨ after = [] ∧ p.ending = [] ∧ p.line ≠ []
  /-- A carriage return that ends a line is not followed by a line feed. -/
  whole : ∀ before p after, ps = before ++ p :: after → p.ending = ['\r'] →
    (joinPieces after).head? ≠ some '\n'

section
variable {cs : List Char} {p q : Piece} {ps qs : List Piece}

theorem joinPieces_cons (p : Piece) (ps : List Piece) :
    joinPieces (p :: ps) = p.line ++ (p.ending ++ joinPieces ps) := by
  simp [joinPieces]

/-- The conditions on a first piece with a text behind it. -/
structure Piece.Leads (p : Piece) (rest : List Char) : Prop where
  unbroken : ∀ c ∈ p.line, isTerminator c = false
  ended : IsBreak p.ending ∨ rest = [] ∧ p.ending = [] ∧ p.line ≠ []
  whole : p.ending = ['\r'] → rest.head? ≠ some '\n'

theorem IsBreak.ne_nil {e : List Char} (h : IsBreak e) : e ≠ [] := by
  cases h <;> simp

theorem Piece.Leads.ne_nil {rest : List Char} (h : p.Leads rest) : p.line ++ p.ending ≠ [] := by
  rcases h.ended with he | ⟨-, -, hl⟩
  · simp [he.ne_nil]
  · simp [hl]

theorem cutInto_nil : CutInto [] [] :=
  ⟨rfl, by simp, by simp, by simp⟩

theorem CutInto.tail (h : CutInto cs (p :: ps)) : CutInto (joinPieces ps) ps where
  lossless := rfl
  unbroken := fun q hq => h.unbroken q (by simp [hq])
  ended := fun before q after heq => h.ended (p :: before) q after (by rw [heq]; rfl)
  whole := fun before q after heq => h.whole (p :: before) q after (by rw [heq]; rfl)

theorem CutInto.leads (h : CutInto cs (p :: ps)) : p.Leads (joinPieces ps) where
  unbroken := h.unbroken p (by simp)
  ended := by
    rcases h.ended [] p ps rfl with he | ⟨rfl, hrest⟩
    · exact .inl he
    · exact .inr ⟨rfl, hrest⟩
  whole := h.whole [] p ps rfl

theorem CutInto.eq_nil (h : CutInto [] ps) : ps = [] := by
  cases ps with
  | nil => rfl
  | cons p ps =>
    have hnil := h.lossless
    rw [joinPieces_cons, ← List.append_assoc] at hnil
    exact (h.leads.ne_nil (List.append_eq_nil_iff.1 hnil.symm).1).elim

/-- A piece in front of a cut. -/
theorem CutInto.cons (h : CutInto cs ps) (hp : p.Leads cs) :
    CutInto (p.line ++ (p.ending ++ cs)) (p :: ps) where
  lossless := by rw [joinPieces_cons, ← h.lossless]
  unbroken := List.forall_mem_cons.2 ⟨hp.unbroken, h.unbroken⟩
  ended := by
    intro before q after heq
    cases before with
    | nil =>
      obtain ⟨rfl, rfl⟩ := List.cons.inj heq
      rcases hp.ended with he | ⟨rfl, hrest⟩
      · exact .inl he
      · exact .inr ⟨h.eq_nil, hrest⟩
    | cons b before =>
      obtain ⟨-, htail⟩ := List.cons.inj heq
      exact h.ended before q after htail
  whole := by
    intro before q after heq
    cases before with
    | nil =>
      obtain ⟨rfl, rfl⟩ := List.cons.inj heq
      rw [← h.lossless]
      exact hp.whole
    | cons b before =>
      obtain ⟨-, htail⟩ := List.cons.inj heq
      exact h.whole before q after htail

/-! ## The lines of a cut -/

/-- A break closes the line before it. -/
theorem IsBreak.lines_eq {e rest : List Char} (h : IsBreak e)
    (hw : e = ['\r'] → rest.head? ≠ some '\n') : lines (e ++ rest) = [] :: lines rest := by
  cases h with
  | pair => exact lines_pair rest
  | @single c hc =>
    refine lines_break hc ?_
    rintro ⟨hr, hn⟩
    obtain rfl : c = '\r' := by simpa using hr
    exact hw rfl hn

/-- A line grows at its front. -/
theorem lines_append_of_unbroken {l cs : List Char} {ls : List (List Char)}
    (hl : ∀ c ∈ l, isTerminator c = false) (h : lines cs = [] :: ls) :
    lines (l ++ cs) = l :: ls := by
  induction l with
  | nil => exact h
  | cons c l ih =>
    rw [List.cons_append, lines_char _ (hl c (by simp)), firstLine, laterLines,
      ih fun d hd => hl d (by simp [hd])]
    rfl

theorem lines_of_unbroken {l : List Char} (hl : ∀ c ∈ l, isTerminator c = false) (hne : l ≠ []) :
    lines l = [l] := by
  obtain ⟨c, l, rfl⟩ := List.exists_cons_of_ne_nil hne
  obtain ⟨hfirst, hlater⟩ := firstLine_append [] fun d (hd : d ∈ l) => hl d (by simp [hd])
  rw [List.append_nil] at hfirst hlater
  rw [lines_char l (hl c (by simp)), hfirst, hlater]
  show [c :: (l ++ [])] = _
  rw [List.append_nil]

/-- A first piece is the first line of its text. -/
theorem Piece.Leads.lines_eq {rest : List Char} (h : p.Leads rest) :
    lines (p.line ++ (p.ending ++ rest)) = p.line :: lines rest := by
  rcases h.ended with he | ⟨rfl, he, hne⟩
  · exact lines_append_of_unbroken h.unbroken (he.lines_eq h.whole)
  · rw [he, List.append_nil, List.append_nil, lines_of_unbroken h.unbroken hne]
    rfl

theorem CutInto.lines_eq (h : CutInto cs ps) : lines cs = ps.map (·.line) := by
  induction ps generalizing cs with
  | nil => rw [h.lossless]; rfl
  | cons p ps ih =>
    rw [h.lossless, joinPieces_cons, h.leads.lines_eq, ih h.tail]
    rfl

/-! ## Existence and uniqueness -/

theorem exists_cutInto (cs : List Char) : ∃ ps, CutInto cs ps := by
  have hempty {e cs : List Char} {ps : List Piece} (he : IsBreak e)
      (hw : e = ['\r'] → cs.head? ≠ some '\n') (h : CutInto cs ps) :
      CutInto (e ++ cs) (⟨[], e⟩ :: ps) :=
    h.cons (p := ⟨[], e⟩) ⟨by simp, .inl he, hw⟩
  induction cs using lines_induction with
  | nil => exact ⟨[], cutInto_nil⟩
  | pair cs ih =>
    obtain ⟨ps, hps⟩ := ih
    exact ⟨_, hempty .pair (by simp) hps⟩
  | single c cs hc hu ih =>
    obtain ⟨ps, hps⟩ := ih
    refine ⟨_, hempty (.single hc) ?_ hps⟩
    intro hr hn
    exact hu ⟨by simpa using hr, hn⟩
  | char c cs hc ih =>
    obtain ⟨ps, hps⟩ := ih
    cases ps with
    | nil =>
      -- nothing follows, so the character is a last line without a break
      obtain rfl : cs = [] := hps.lossless
      exact ⟨_, cutInto_nil.cons (p := ⟨[c], []⟩)
        ⟨by simpa using hc, .inr ⟨rfl, rfl, by simp⟩, by simp⟩⟩
    | cons p ps =>
      have hp := hps.leads
      have hcut := hps.tail.cons (p := ⟨c :: p.line, p.ending⟩)
        ⟨List.forall_mem_cons.2 ⟨hc, hp.unbroken⟩,
          hp.ended.imp_right fun h => ⟨h.1, h.2.1, by simp⟩, hp.whole⟩
      rw [hps.lossless, joinPieces_cons]
      exact ⟨_, hcut⟩

/-- A text begins with at most one break that is not cut in two. -/
theorem IsBreak.unique {e e' rest rest' : List Char} (h : IsBreak e) (h' : IsBreak e')
    (hw : e = ['\r'] → rest.head? ≠ some '\n') (hw' : e' = ['\r'] → rest'.head? ≠ some '\n')
    (heq : e ++ rest = e' ++ rest') : e = e' := by
  cases h with
  | pair =>
    cases h' with
    | pair => rfl
    | @single c hc =>
      have hcons : '\r' :: '\n' :: rest = c :: rest' := heq
      obtain ⟨rfl, rfl⟩ := List.cons.inj hcons
      exact (hw' rfl rfl).elim
  | @single c hc =>
    cases h' with
    | pair =>
      have hcons : c :: rest = '\r' :: '\n' :: rest' := heq
      obtain ⟨rfl, rfl⟩ := List.cons.inj hcons
      exact (hw rfl rfl).elim
    | single hc' =>
      obtain ⟨rfl, -⟩ := List.cons.inj heq
      rfl

theorem Piece.Leads.ending_eq {rest rest' : List Char} (h : p.Leads rest) (h' : q.Leads rest')
    (heq : p.ending ++ rest = q.ending ++ rest') : p.ending = q.ending := by
  rcases h.ended with he | ⟨rfl, he, -⟩
  · rcases h'.ended with he' | ⟨rfl, he', -⟩
    · exact he.unique he' h.whole h'.whole heq
    · rw [he', List.append_nil] at heq
      exact (he.ne_nil (List.append_eq_nil_iff.1 heq).1).elim
  · rw [he, List.append_nil] at heq
    rw [he, (List.append_eq_nil_iff.1 heq.symm).1]

theorem CutInto.unique (h : CutInto cs ps) (h' : CutInto cs qs) : ps = qs := by
  induction ps generalizing cs qs with
  | nil =>
    rw [h.lossless] at h'
    exact h'.eq_nil.symm
  | cons p ps ih =>
    cases qs with
    | nil =>
      rw [h'.lossless] at h
      exact h.eq_nil
    | cons q qs =>
      have hlines : (p :: ps).map (·.line) = (q :: qs).map (·.line) := by
        rw [← h.lines_eq, h'.lines_eq]
      have hline : p.line = q.line := (List.cons.inj hlines).1
      have htext := h.lossless.symm.trans h'.lossless
      rw [joinPieces_cons, joinPieces_cons, hline] at htext
      have hbehind := List.append_cancel_left htext
      have hending := h.leads.ending_eq h'.leads hbehind
      rw [hending] at hbehind
      have hrest := h'.tail
      rw [← List.append_cancel_left hbehind] at hrest
      rw [ih h.tail hrest]
      obtain ⟨line, ending⟩ := p
      obtain rfl : line = q.line := hline
      obtain rfl : ending = q.ending := hending
      rfl

end

end Flowchart.Text

namespace Flowchart

open Text

/-- Lines are numbered one by one. -/
theorem numberLines_eq_iff {n : Int} {xs : List (List Char)} {ls : List SourceLine} :
    numberLines n xs = ls ↔
      ls.map (·.text.toList) = xs ∧
        ls.map (·.number) = (List.range ls.length).map fun i : Nat => n + (i : Int) := by
  induction ls generalizing n xs with
  | nil => cases xs <;> simp [numberLines]
  | cons l ls ih =>
    cases xs with
    | nil => simp [numberLines]
    | cons x xs =>
      have hrange : (List.range (l :: ls).length).map (fun i : Nat => n + (i : Int)) =
          n :: (List.range ls.length).map fun i : Nat => n + 1 + (i : Int) := by
        rw [List.length_cons, List.range_succ_eq_map, List.map_cons, List.map_map]
        congr 1
        · simp
        · apply List.map_congr_left
          intro i _
          simp only [Function.comp_apply]
          push_cast
          omega
      obtain ⟨text, number⟩ := l
      rw [hrange, numberLines, List.cons_eq_cons, ih]
      simp only [List.map_cons, List.cons_eq_cons, SourceLine.mk.injEq]
      constructor
      · rintro ⟨⟨rfl, rfl⟩, hx, hn⟩
        exact ⟨⟨by simp, hx⟩, rfl, hn⟩
      · rintro ⟨⟨rfl, hx⟩, rfl, hn⟩
        exact ⟨⟨by simp, rfl⟩, hx, hn⟩

/-- A text has exactly one cut into pieces, and its lines are the lines of the pieces, numbered
from 1. -/
theorem sourceLines_cut_uniquely (text : String) :
    (∃! ps, CutInto text.toList ps) ∧
      ∀ ls, sourceLines text = ls ↔
        (∃ ps, CutInto text.toList ps ∧ ls.map (·.text.toList) = ps.map (·.line)) ∧
          ls.map (·.number) = (List.range ls.length).map fun i : Nat => 1 + (i : Int) := by
  obtain ⟨ps, hps⟩ := exists_cutInto text.toList
  refine ⟨⟨ps, hps, fun qs hqs => hqs.unique hps⟩, fun ls => ?_⟩
  rw [sourceLines, numberLines_eq_iff]
  refine and_congr_left fun _ => ?_
  constructor
  · intro hlines
    exact ⟨ps, hps, by rw [hlines, hps.lines_eq]⟩
  · rintro ⟨qs, hqs, hlines⟩
    rw [hlines, hqs.lines_eq]

end Flowchart

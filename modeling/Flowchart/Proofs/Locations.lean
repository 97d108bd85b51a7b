import Flowchart.Proofs.Clauses
import Flowchart.Proofs.LineOrder
import Flowchart.Proofs.Violations

/-!
# Where diagnostics point

The line and the text of a diagnostic come from characters or tokens of the
source, so the line is one of the source and the text can be found on it. Only
the parameters of a call may stand on a later line than the call: one of a
wrong kind is reported on the line of the call.
-/

namespace Flowchart

/-- A text occurs on a line. -/
def SourceLine.Shows (l : SourceLine) (shown : String) : Prop := shown.toList <:+: l.text.toList

/-- The fault is a parameter whose kind the signature does not ask for. -/
def Cause.IsWrongKind (c : Cause) : Prop :=
  ∃ call i expected found value, c = .wrongKind call i expected found value

/-! ## Numbers of lines -/

theorem lt_of_mem_numberLines {n : Int} {ls : List (List Char)} {l : SourceLine}
    (h : l ∈ numberLines n ls) : l.number < n + ls.length := by
  induction ls generalizing n with
  | nil => cases h
  | cons x ls ih =>
    rw [List.length_cons]
    rcases List.mem_cons.1 h with rfl | h
    · show n < _
      omega
    · have := ih h
      omega

theorem number_of_mem_sourceLines {text : String} {l : SourceLine} (h : l ∈ sourceLines text) :
    1 ≤ l.number ∧ l.number ≤ lineCount text := by
  have hlow := le_of_mem_numberLines h
  have hhigh := lt_of_mem_numberLines h
  rw [lineCount, sourceLines, length_numberLines]
  omega

/-! ## Faults of scanning -/

/-- What is reported of a refused text stands in it. -/
theorem Refused.infix_of_text {cs : List Char} {cause : Cause} (h : Refused cs cause)
    {shown : String} (hs : cause.text? = some shown) : shown.toList <:+: cs := by
  cases h with
  | @stray c cs hc =>
    obtain rfl : String.singleton c = shown := Option.some.inj hs
    exact ⟨[], cs, by simp⟩
  | @trailing bs cs c hb hc =>
    obtain rfl : String.singleton c = shown := Option.some.inj hs
    exact ⟨')' :: bs, cs, by simp⟩
  | @unterminated v hv =>
    obtain rfl : "\"" = shown := Option.some.inj hs
    exact ⟨[], v, rfl⟩

theorem shows_of_tokenize_error {l : SourceLine} {d : Diagnostic} (h : tokenize l = .error d)
    {shown : String} (hs : d.cause.text? = some shown) : l.Shows shown := by
  obtain ⟨-, hfault⟩ := tokenize_eq_error_iff.1 h
  obtain ⟨before, rest, hcut, -, href⟩ := exists_passage hfault
  rw [SourceLine.Shows, hcut]
  exact (href.infix_of_text hs).trans (List.suffix_append _ _).isInfix

/-! ## Faults of parsing -/

/-- A token can be found on its line. -/
theorem exists_line_showing {ls : List SourceLine} {ts : List Token}
    (h : tokenizeLines ls = .ok ts) {t : Token} (ht : t ∈ ts) :
    ∃ l ∈ ls, l.number = t.line ∧ l.Shows t.value := by
  obtain ⟨l, hl, us, hus, htus⟩ := exists_line_of_token h ht
  refine ⟨l, hl, (line_of_tokenize hus t htus).symm, ?_⟩
  obtain ⟨s, -, rfl, htext⟩ := exists_spacing_of_tokenize hus
  rw [SourceLine.Shows, ← htext]
  exact Spacing.infix_text htus

/-- A diagnostic of a call blames one token: the line and the text are that token's, but for a
parameter of a wrong kind, where the line is that of the name. -/
theorem Violation.exists_blamed {name : Token} {ts : List Token} {d : Diagnostic}
    (h : Violation name ts d) :
    ∃ t ∈ name :: ts, (∀ shown, d.cause.text? = some shown → shown = t.value) ∧
      (d.line = t.line ∨ d.cause.IsWrongKind ∧ d.line = name.line ∧ t ∈ ts) := by
  have htext {v : String} : ∀ shown, some v = some shown → shown = v :=
    fun _ hs => (Option.some.inj hs).symm
  cases h with
  | unknown | unterminated => exact ⟨name, by simp, htext, .inl rfl⟩
  | ended => exact ⟨name, by simp, fun _ hs => (by cases hs), .inl rfl⟩
  | @notOpened _ t => exact ⟨t, by simp, htext, .inl rfl⟩
  | @unexpected _ o t => exact ⟨t, by simp, htext, .inl rfl⟩
  | wrongCount hn =>
    refine ⟨name, by simp, ?_, .inl rfl⟩
    rw [hn]
    exact htext
  | @wrongKind _ o t p => exact ⟨p, by simp, htext, .inr ⟨⟨_, _, _, _, _, rfl⟩, rfl, by simp⟩⟩

/-! ## Diagnostics of a document -/

/-- A diagnostic points into lines: its line is one of them, and its text can be found there, or,
for a parameter of a wrong kind, on that line or below. -/
structure Diagnostic.PointsInto (d : Diagnostic) (ls : List SourceLine) : Prop where
  line : ∃ l ∈ ls, l.number = d.line
  shown : ∀ shown, d.cause.text? = some shown → ∃ l ∈ ls, l.Shows shown ∧
    (l.number = d.line ∨ d.cause.IsWrongKind ∧ d.line ≤ l.number)

section
variable {ls : List SourceLine} {d : Diagnostic}

theorem pointsInto_of_tokenizeLines (h : tokenizeLines ls = .error d) : d.PointsInto ls := by
  obtain ⟨l, hl, hfault⟩ := exists_line_of_fault h
  have hline : l.number = d.line := (tokenize_eq_error_iff.1 hfault).1.symm
  exact ⟨⟨l, hl, hline⟩, fun _ hs => ⟨l, hl, shows_of_tokenize_error hfault hs, .inl hline⟩⟩

theorem pointsInto_of_parse {ts : List Token} (hls : Ascending ls) (hts : tokenizeLines ls = .ok ts)
    (h : parse ts = .error d) : d.PointsInto ls := by
  obtain ⟨before, name, behind, hb⟩ := exists_breach h
  obtain ⟨t, ht, htext, hline⟩ := hb.violation.exists_blamed
  have hsub : name :: behind ⊆ ts := by simp [hb.cut]
  obtain ⟨l, hl, hnumber, hshows⟩ := exists_line_showing hts (hsub ht)
  obtain ⟨m, hm, hname, -⟩ := exists_line_showing hts (hsub (List.mem_cons_self ..))
  rcases hline with hline | ⟨hwrong, hline, hbehind⟩
  · refine ⟨⟨l, hl, hnumber.trans hline.symm⟩, fun shown hs => ⟨l, hl, ?_, .inl ?_⟩⟩
    · rwa [htext shown hs]
    · exact hnumber.trans hline.symm
  · -- the tokens of a call come after its name, on its line or below
    have horder := precedes_of_tokenizeLines hls hts
    rw [hb.cut] at horder
    have hle := ((List.pairwise_cons.1 (List.pairwise_append.1 horder).2.1).1 t hbehind).line_le
    refine ⟨⟨m, hm, hname.trans hline.symm⟩, fun shown hs => ⟨l, hl, ?_, .inr ⟨hwrong, ?_⟩⟩⟩
    · rwa [htext shown hs]
    · omega

theorem pointsInto_of_parseLines (hls : Ascending ls) (h : parseLines ls = .error d) :
    d.PointsInto ls := by
  cases hts : tokenizeLines ls with
  | error e =>
    rw [parseLines_of_fault hts] at h
    cases h
    exact pointsInto_of_tokenizeLines hts
  | ok ts =>
    rw [parseLines_of_tokens hts] at h
    exact pointsInto_of_parse hls hts h

end

/-- A diagnostic points into the source. Its line is one of the source, and its text, if it has
one, occurs on that line; only a parameter of a wrong kind may occur on a later line. -/
theorem diagnostic_points_into_source (text : String) (d : Diagnostic)
    (h : parseLines (sourceLines text) = .error d) :
    1 ≤ d.line ∧ d.line ≤ lineCount text ∧
    ∀ shown, d.cause.text? = some shown →
      (¬d.cause.IsWrongKind → ∃ l ∈ sourceLines text, l.number = d.line ∧
        shown.toList <:+: l.text.toList) ∧
      (d.cause.IsWrongKind → ∃ l ∈ sourceLines text, d.line ≤ l.number ∧
        shown.toList <:+: l.text.toList) := by
  obtain ⟨⟨l, hl, hline⟩, hshown⟩ := pointsInto_of_parseLines (ascending_sourceLines text) h
  obtain ⟨hlow, hhigh⟩ := number_of_mem_sourceLines hl
  refine ⟨by omega, by omega, fun shown hs => ?_⟩
  obtain ⟨m, hm, hshows, hplace⟩ := hshown shown hs
  constructor
  · intro hright
    rcases hplace with hplace | ⟨hwrong, -⟩
    · exact ⟨m, hm, hplace, hshows⟩
    · exact absurd hwrong hright
  · rintro -
    rcases hplace with hplace | ⟨-, hplace⟩
    · exact ⟨m, hm, Int.le_of_eq hplace.symm, hshows⟩
    · exact ⟨m, hm, hplace, hshows⟩

/-- A number in the place of a label, two lines below its call, is reported on the line of the call,
where it does not occur. A number behind a name without parentheses is reported on its own line. -/
theorem diagnostic_points_into_source_below_call :
    let text := "\nRel(\na,\n5 b)"
    let d : Diagnostic := ⟨2, .wrongKind .rel 1 .string .number "5"⟩
    let text' := "Queue\n7 \"a b\""
    let d' : Diagnostic := ⟨2, .expectedOpen "Queue" (some "7")⟩
    parseLines (sourceLines text) = .error d ∧
    (∃ l ∈ sourceLines text, 2 ≤ l.number ∧ "5".toList <:+: l.text.toList) ∧
    (¬∃ l ∈ sourceLines text, l.number = 2 ∧ "5".toList <:+: l.text.toList) ∧
    parseLines (sourceLines text') = .error d' ∧
    ∃ l ∈ sourceLines text', l.number = 2 ∧ "7".toList <:+: l.text.toList := by
  intro text d text' d'
  have h : parseLines (sourceLines text) = .error d := by decide +kernel
  have h' : parseLines (sourceLines text') = .error d' := by decide +kernel
  have hlines : sourceLines text = [⟨"", 1⟩, ⟨"Rel(", 2⟩, ⟨"a,", 3⟩, ⟨"5 b)", 4⟩] := by
    decide +kernel
  refine ⟨h, ?_, ?_, h', ?_⟩
  · exact ((diagnostic_points_into_source text d h).2.2 "5" rfl).2 ⟨_, _, _, _, _, rfl⟩
  · rintro ⟨l, hl, hline, hshows⟩
    rw [hlines] at hl
    obtain rfl : l = ⟨"Rel(", 2⟩ := by
      simp only [List.mem_cons, List.not_mem_nil, or_false] at hl
      rcases hl with rfl | rfl | rfl | rfl
      · cases hline
      · rfl
      · cases hline
      · cases hline
    have hmem : '5' ∈ "Rel(".toList := hshows.subset (by decide)
    exact absurd hmem (by decide)
  · refine ((diagnostic_points_into_source text' d' h').2.2 "7" rfl).1 ?_
    rintro ⟨_, _, _, _, _, hd⟩
    cases hd

end Flowchart

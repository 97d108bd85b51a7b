import Flowchart.Proofs.Concatenation

/-!
# One statement per line

A closing parenthesis is the last token of its line. On lines whose numbers
ascend, every token behind it therefore stands on a later line, and so does the
next statement. A statement may spread over several lines, but no two
statements share one.
-/

namespace Flowchart

/-- Lines whose numbers increase. -/
def Ascending (ls : List SourceLine) : Prop := ls.Pairwise fun a b => a.number < b.number

/-- The order of the lines of two tokens, of which the first stands before the second: nothing
follows a closing parenthesis on its line. -/
structure Token.Precedes (t u : Token) : Prop where
  line_le : t.line ≤ u.line
  line_lt : t.kind = .closeParen → t.line < u.line

/-! ## Numbered lines -/

theorem le_of_mem_numberLines {n : Int} {ls : List (List Char)} {l : SourceLine}
    (h : l ∈ numberLines n ls) : n ≤ l.number := by
  induction ls generalizing n with
  | nil => cases h
  | cons x ls ih =>
    rcases List.mem_cons.1 h with rfl | h
    · exact Int.le_refl n
    · have := ih h
      omega

theorem ascending_numberLines (n : Int) (ls : List (List Char)) : Ascending (numberLines n ls) := by
  induction ls generalizing n with
  | nil => exact .nil
  | cons x ls ih =>
    refine .cons (fun l hl => ?_) (ih (n + 1))
    have := le_of_mem_numberLines hl
    show n < l.number
    omega

theorem ascending_sourceLines (text : String) : Ascending (sourceLines text) :=
  ascending_numberLines 1 _

/-! ## Tokens -/

theorem pairwise_of_dropLast {α : Type} {P : α → Prop} {xs : List α} (h : ∀ x ∈ xs.dropLast, P x) :
    xs.Pairwise fun x _ => P x := by
  induction xs with
  | nil => exact .nil
  | cons x xs ih =>
    cases xs with
    | nil => exact List.pairwise_singleton _ x
    | cons y xs =>
      obtain ⟨hx, hxs⟩ := List.forall_mem_cons.1 h
      exact .cons (fun _ _ => hx) (ih hxs)

theorem line_of_tokenize {l : SourceLine} {ts : List Token} (h : tokenize l = .ok ts) :
    ∀ t ∈ ts, t.line = l.number := by
  obtain ⟨s, hs, rfl, -⟩ := exists_spacing_of_tokenize h
  exact hs.on_line

theorem precedes_of_tokenize {l : SourceLine} {ts : List Token} (h : tokenize l = .ok ts) :
    ts.Pairwise Token.Precedes := by
  have hline := line_of_tokenize h
  obtain ⟨s, hs, rfl, -⟩ := exists_spacing_of_tokenize h
  refine (pairwise_of_dropLast hs.close_last).imp_of_mem fun {t u} ht hu hopen => ?_
  have heq : t.line = u.line := (hline t ht).trans (hline u hu).symm
  exact ⟨Int.le_of_eq heq, fun hc => (hopen hc).elim⟩

theorem exists_line_of_tokenizeLines {ls : List SourceLine} {ts : List Token}
    (h : tokenizeLines ls = .ok ts) : ∀ t ∈ ts, ∃ l ∈ ls, t.line = l.number := by
  intro t ht
  obtain ⟨l, hl, us, hus, htus⟩ := exists_line_of_token h ht
  exact ⟨l, hl, line_of_tokenize hus t htus⟩

/-- The tokens of ascending lines. -/
theorem precedes_of_tokenizeLines {ls : List SourceLine} {ts : List Token} (hls : Ascending ls)
    (h : tokenizeLines ls = .ok ts) : ts.Pairwise Token.Precedes := by
  induction ls generalizing ts with
  | nil => cases h; exact .nil
  | cons l ls ih =>
    obtain ⟨hl, hls⟩ := List.pairwise_cons.1 hls
    obtain ⟨us, vs, hu, hv, rfl⟩ := tokenizeLines_cons_ok.1 h
    refine List.pairwise_append.2 ⟨precedes_of_tokenize hu, ih hls hv, fun t ht u hu' => ?_⟩
    obtain ⟨m, hm, heq⟩ := exists_line_of_tokenizeLines hv u hu'
    have hlt : t.line < u.line := by
      rw [line_of_tokenize hu t ht, heq]
      exact hl m hm
    exact ⟨Int.le_of_lt hlt, fun _ => hlt⟩

/-! ## Statements -/

namespace Call

theorem name_mem (c : Call) : c.name ∈ c.tokens := by simp [tokens]

theorem closing_mem (c : Call) : c.closing ∈ c.tokens := by simp [tokens]

/-- A call begins on the line of its name and ends on the line of its closing parenthesis. -/
theorem lines_of_precedes {c : Call} (h : c.tokens.Pairwise Token.Precedes) :
    ∀ t ∈ c.tokens, c.name.line ≤ t.line ∧ t.line ≤ c.closing.line := by
  have htokens : c.tokens = (c.name :: c.opening :: c.params) ++ [c.closing] := by simp [tokens]
  intro t ht
  constructor
  · rcases List.mem_cons.1 ht with rfl | ht
    · exact Int.le_refl _
    · exact ((List.pairwise_cons.1 h).1 t ht).line_le
  · rw [htokens] at h ht
    rcases List.mem_append.1 ht with ht | ht
    · exact ((List.pairwise_append.1 h).2.2 t ht c.closing (by simp)).line_le
    · exact Int.le_of_eq (congrArg Token.line (List.mem_singleton.1 ht))

end Call

namespace Sentence

variable {d : Sentence}

theorem precedes_call (h : d.tokens.Pairwise Token.Precedes) :
    ∀ c ∈ d.calls, c.1.tokens.Pairwise Token.Precedes := by
  intro c hc
  have hcalls := (List.pairwise_flatMap.1 (List.pairwise_append.1 h).2.1).1 c hc
  exact (List.pairwise_append.1 hcalls).1

/-- A call stands below the calls before it. -/
theorem closing_lt_name (h : d.tokens.Pairwise Token.Precedes) :
    d.calls.Pairwise fun c c' => c.1.closing.line < c'.1.name.line := by
  refine (List.pairwise_flatMap.1 (List.pairwise_append.1 h).2.1).2.imp fun {c c'} hcc => ?_
  have hclose : c.1.closing ∈ c.1.tokens ++ c.2.1 := List.mem_append_left _ c.1.closing_mem
  have hname : c'.1.name ∈ c'.1.tokens ++ c'.2.1 := List.mem_append_left _ c'.1.name_mem
  exact (hcc _ hclose _ hname).line_lt c.1.closing_kind

theorem statements_ascend (h : d.tokens.Pairwise Token.Precedes) :
    d.statements.Pairwise fun s s' => s.line < s'.line := by
  rw [statements, List.pairwise_map]
  refine (closing_lt_name h).imp_of_mem fun {c c'} hc _ hlt => ?_
  have hle := (Call.lines_of_precedes (precedes_call h c hc) _ c.1.closing_mem).1
  exact Int.lt_of_le_of_lt hle hlt

end Sentence

/-- The statements of ascending lines stand on ascending lines. -/
theorem statements_ascend_of_parseLines {ls : List SourceLine} {ss : List Statement}
    (hls : Ascending ls) (h : parseLines ls = .ok ss) :
    ss.Pairwise fun s s' => s.line < s'.line := by
  obtain ⟨ts, hts, hparse⟩ := exists_tokens_of_parseLines h
  obtain ⟨d, rfl, rfl⟩ := Sentence.exists_of_parse hparse
  exact Sentence.statements_ascend (precedes_of_tokenizeLines hls hts)

/-- At most one statement stands on a line, if the numbers of the lines increase, as those of a
source do. The tokens of a statement stand on lines from its own to that of its closing
parenthesis, and the next statement begins on a later one. -/
theorem one_statement_per_line :
    (∀ (ls : List SourceLine) (ss : List Statement), Ascending ls → parseLines ls = .ok ss →
      (ss.map (·.line)).Pairwise (· < ·) ∧
      ∃ d : Sentence, tokenizeLines ls = .ok d.tokens ∧ d.statements = ss ∧
        (∀ c ∈ d.calls, ∀ t ∈ c.1.tokens,
          c.1.statement.line ≤ t.line ∧ t.line ≤ c.1.closing.line) ∧
        d.calls.Pairwise fun c c' => c.1.closing.line < c'.1.name.line) ∧
    ∀ text, Ascending (sourceLines text) := by
  refine ⟨fun ls ss hls h => ⟨?_, ?_⟩, ascending_sourceLines⟩
  · exact List.pairwise_map.2 (statements_ascend_of_parseLines hls h)
  · obtain ⟨ts, hts, hparse⟩ := exists_tokens_of_parseLines h
    obtain ⟨d, rfl, rfl⟩ := Sentence.exists_of_parse hparse
    have horder := precedes_of_tokenizeLines hls hts
    refine ⟨d, hts, rfl, fun c hc => ?_, Sentence.closing_lt_name horder⟩
    exact Call.lines_of_precedes (Sentence.precedes_call horder c hc)

/-- Lines with gaps in their numbers; the first statement ends two lines below its name, and a
stray number stands before the second one. -/
theorem one_statement_per_line_with_gaps :
    let ls : List SourceLine := [⟨"Entity(a,", -2⟩, ⟨"", 0⟩, ⟨"\"A\")", 3⟩, ⟨"7 Rel(a \"x\" b)", 8⟩]
    Ascending ls ∧ ∃ ss, parseLines ls = .ok ss ∧ ss.map (·.line) = [-2, 8] ∧
      (ss.map (·.line)).Pairwise (· < ·) := by
  intro ls
  have hls : Ascending ls := by simp [ls, Ascending]
  have h : parseLines ls =
      .ok [⟨.call .entity, -2, [⟨.identifier, "a", -2⟩, ⟨.string, "A", 3⟩]⟩,
        ⟨.call .rel, 8, [⟨.identifier, "a", 8⟩, ⟨.string, "x", 8⟩, ⟨.identifier, "b", 8⟩]⟩] := by
    decide +kernel
  exact ⟨hls, _, h, rfl, (one_statement_per_line.1 _ _ hls h).1⟩

end Flowchart

import Flowchart.Proofs.Concatenation

/-!
# Line numbers are only reported

The parser carries line numbers along and never looks at them, so it reads a
stream on other lines in the same way. Two documents with the same kinds and
values of tokens have the same flowchart lines or the same fault, however they
are broken into lines.
-/

namespace Flowchart

/-- What a token is, wherever it stands. -/
def Token.content (t : Token) : Kind × String := (t.kind, t.value)

/-- Moved to one line, streams of the same content are the same. -/
theorem map_relabel_of_content {ts us : List Token}
    (h : ts.map Token.content = us.map Token.content) (line : Int) :
    ts.map (Token.relabel fun _ => line) = us.map (Token.relabel fun _ => line) := by
  have hplaced (ts : List Token) : ts.map (Token.relabel fun _ => line) =
      (ts.map Token.content).map fun c => ⟨c.1, c.2, line⟩ := by
    rw [List.map_map]; rfl
  rw [hplaced, hplaced, h]

theorem generate_relabel (f : Int → Int) (ss : List Statement) :
    generate (ss.map (Statement.relabel f)) = generate ss := by
  induction ss with
  | nil => rfl
  | cons s ss ih =>
    have hvalues : (s.params.map (Token.relabel f)).map (·.value) = s.params.map (·.value) := by
      rw [List.map_map]; rfl
    simp only [List.map_cons, generate, Statement.relabel, hvalues, ih]

/-- Two outcomes of compilation are the same but for the line of a fault. -/
inductive SameButLine :
    Except CompileFault (List String) → Except CompileFault (List String) → Prop where
  | compiled (out : List String) : SameButLine (.ok out) (.ok out)
  | fault (line line' : Int) (cause : Cause) :
      SameButLine (.error (.diagnostic ⟨line, cause⟩)) (.error (.diagnostic ⟨line', cause⟩))

theorem transpile_of_parse_ok {ls : List SourceLine} {ts : List Token} {ss : List Statement}
    (hts : tokenizeLines ls = .ok ts) (hss : parse ts = .ok ss) :
    transpile ls = (generate ss).mapError .missingPiece := by
  rw [transpile, parseLines_of_tokens hts, hss]

theorem transpile_of_parse_error {ls : List SourceLine} {ts : List Token} {d : Diagnostic}
    (hts : tokenizeLines ls = .ok ts) (hd : parse ts = .error d) :
    transpile ls = .error (.diagnostic d) := by
  rw [transpile, parseLines_of_tokens hts, hd]

/-- Documents with the same content compile alike. -/
theorem sameButLine_of_content {ls ms : List SourceLine} {ts us : List Token}
    (hts : tokenizeLines ls = .ok ts) (hus : tokenizeLines ms = .ok us)
    (h : ts.map Token.content = us.map Token.content) :
    SameButLine (transpile ls) (transpile ms) := by
  -- both streams, moved to one line, are parsed as one
  have hparse : relabelOutcome (fun _ => 0) (List.map (Statement.relabel fun _ => 0)) (parse ts) =
      relabelOutcome (fun _ => 0) (List.map (Statement.relabel fun _ => 0)) (parse us) := by
    rw [← parse_relabel, ← parse_relabel, map_relabel_of_content h]
  cases hp : parse ts with
  | ok ss =>
    cases hq : parse us with
    | error e => rw [hp, hq] at hparse; cases hparse
    | ok vs =>
      rw [hp, hq, relabelOutcome_ok, relabelOutcome_ok] at hparse
      obtain ⟨out, hout⟩ := draws_of_parse hp
      have hss := generate_of_draws hout
      have hvs : generate vs = .ok out := by
        rw [← generate_relabel (fun _ => 0), ← Except.ok.inj hparse, generate_relabel, hss]
      rw [transpile_of_parse_ok hts hp, transpile_of_parse_ok hus hq, hss, hvs]
      exact .compiled out
  | error d =>
    cases hq : parse us with
    | ok vs => rw [hp, hq] at hparse; cases hparse
    | error e =>
      rw [hp, hq, relabelOutcome_error, relabelOutcome_error] at hparse
      have hmoved : d.relabel (fun _ => 0) = e.relabel fun _ => 0 := Except.error.inj hparse
      rw [transpile_of_parse_error hts hp, transpile_of_parse_error hus hq]
      obtain ⟨line, cause⟩ := d
      obtain ⟨line', cause'⟩ := e
      obtain rfl : cause = cause' := congrArg Diagnostic.cause hmoved
      exact .fault line line' cause

/-- A stream whose lines are changed by any function is parsed to the same statements, or fails for
the same cause, on the changed lines. Hence documents with the same content compile to the same
flowchart lines, or both fail for the same cause. -/
theorem lines_only_reported :
    (∀ (f : Int → Int) (ts : List Token),
      (∀ ss, parse ts = .ok ss →
        parse (ts.map (Token.relabel f)) = .ok (ss.map (Statement.relabel f))) ∧
      (∀ d, parse ts = .error d →
        parse (ts.map (Token.relabel f)) = .error ⟨f d.line, d.cause⟩)) ∧
    (∀ (ls ms : List SourceLine) (ts us : List Token), tokenizeLines ls = .ok ts →
      tokenizeLines ms = .ok us → ts.map Token.content = us.map Token.content →
      SameButLine (transpile ls) (transpile ms)) := by
  refine ⟨fun f ts => ⟨fun ss hss => ?_, fun d hd => ?_⟩,
    fun _ _ _ _ hts hus h => sameButLine_of_content hts hus h⟩
  · rw [parse_relabel, hss]; rfl
  · rw [parse_relabel, hd]; rfl

/-- A relation on one line, and with its parts on four lines between commas. -/
theorem lines_only_reported_spread_relation :
    let tokens (i j k : Int) : List Token :=
      [⟨.identifier, "Rel", i⟩, ⟨.openParen, "(", i⟩, ⟨.identifier, "a", j⟩, ⟨.string, "x", j⟩,
        ⟨.identifier, "b", k⟩, ⟨.closeParen, ")", k⟩]
    tokenizeLines (sourceLines "Rel(a \"x\" b)") = .ok (tokens 1 1 1) ∧
      tokenizeLines (sourceLines "\n,Rel (\n a,\"x\"\n b,)") = .ok (tokens 2 3 4) ∧
      (tokens 1 1 1).map Token.content = (tokens 2 3 4).map Token.content ∧
      parse ((tokens 1 1 1).map (Token.relabel (· * 5))) =
        .ok [⟨.call .rel, 5, [⟨.identifier, "a", 5⟩, ⟨.string, "x", 5⟩, ⟨.identifier, "b", 5⟩]⟩] ∧
      SameButLine (transpile (sourceLines "Rel(a \"x\" b)"))
        (transpile (sourceLines "\n,Rel (\n a,\"x\"\n b,)")) := by
  intro tokens
  have hone : tokenizeLines (sourceLines "Rel(a \"x\" b)") = .ok (tokens 1 1 1) := by
    decide +kernel
  have hfour : tokenizeLines (sourceLines "\n,Rel (\n a,\"x\"\n b,)") = .ok (tokens 2 3 4) := by
    decide +kernel
  have hparse : parse (tokens 1 1 1) =
      .ok [⟨.call .rel, 1, [⟨.identifier, "a", 1⟩, ⟨.string, "x", 1⟩, ⟨.identifier, "b", 1⟩]⟩] := by
    decide +kernel
  obtain ⟨hrelabel, hsame⟩ := lines_only_reported
  exact ⟨hone, hfour, rfl, (hrelabel _ _).1 _ hparse, hsame _ _ _ _ hone hfour rfl⟩

end Flowchart

import Flowchart.Proofs.Agreement

/-!
# Every text is answered

Whatever text a source holds, a build and a check end well or report an error,
and the preview shows a diagram or a diagnostic. A source whose bytes are no
text at all is reported by none of them: the fault of reading it leaves each
of them as it is.
-/

namespace Flowchart

open FileTree

/-- The page shows either a diagram or a diagnostic. -/
def Component.ShowsEither (c : Component) : Prop :=
  c.withId "diagram" ≠ [] ∧ c.withId "diagnostic" = [] ∨
    c.withId "diagram" = [] ∧ c.withId "diagnostic" ≠ []

theorem showsEither_diagram (source : Path) (document : String) :
    (pageAround source (diagramBody document)).ShowsEither := by
  obtain ⟨hdiagram, -, hdiagnostic⟩ := withId_diagramBody document
  left
  rw [withId_pageAround _ _ (by decide) (by decide), withId_pageAround _ _ (by decide) (by decide),
    hdiagram, hdiagnostic]
  exact ⟨List.cons_ne_nil _ _, rfl⟩

theorem showsEither_diagnostic (source : Path) (message : String) :
    (pageAround source (diagnosticBody message)).ShowsEither := by
  obtain ⟨hdiagram, hdiagnostic⟩ := withId_diagnosticBody message
  right
  rw [withId_pageAround _ _ (by decide) (by decide), withId_pageAround _ _ (by decide) (by decide),
    hdiagram, hdiagnostic]
  exact ⟨rfl, List.cons_ne_nil _ _⟩

/-- A source that parses compiles, and the fault of one that does not is that of the parser. -/
theorem transpile_cases (ls : List SourceLine) :
    (∃ ss lines, parseLines ls = .ok ss ∧ transpile ls = .ok lines) ∨
      ∃ d, parseLines ls = .error d ∧ transpile ls = .error (.diagnostic d) := by
  cases hp : parseLines ls with
  | ok ss =>
    obtain ⟨lines, hlines⟩ := draws_of_parseLines hp
    exact .inl ⟨ss, lines, rfl, transpile_of_draws hp hlines⟩
  | error d => exact .inr ⟨d, rfl, by simp [transpile, hp]⟩

namespace Command

/-! ## Answers -/

/-- A command ends well, or it writes an error line and ends with the code for it. -/
inductive Outcome.Answers : Outcome → Prop where
  | success {o : Outcome} : o.result = .ok 0 → o.stderr = "" → o.Answers
  | complaint {o : Outcome} (message : String) : o.result = .ok 1 → o.stdout = "" →
      o.stderr = redErrorLine message → o.Answers

theorem Outcome.answers_refused (message : String) : (Outcome.refused message).Answers :=
  .complaint message rfl rfl (stderr_refused message)

section
variable {t : FileTree} {source : String} {output? : Option String} {p q shown : Path}
  {bytes : List UInt8} {cs : List Char} {noFence fenced : Bool}

theorem Prepared.build_answers (h : Prepared t source output? p q bytes)
    (hdec : Text.decodeUtf8 bytes = .ok cs) :
    (build t source output? .beside noFence).1.Answers := by
  rcases transpile_cases (linesOf cs) with ⟨ss, lines, -, hlines⟩ | ⟨d, -, hd⟩
  · obtain ⟨t', ht', -⟩ := h.transpileFile_of_ok hdec hlines
    rw [h.build_of_ok ht']
    exact .success rfl rfl
  · rw [h.build_of_error (h.transpileFile_of_fault hdec hd)]
    exact Outcome.answers_refused d.message

theorem check_answers (hp : t.resolve (.ofText source) = .ok p) (hread : t.readFile p = .ok bytes)
    (hdec : Text.decodeUtf8 bytes = .ok cs) : (check t source).Answers := by
  have hlines := readSource_of_content hread hdec
  rcases transpile_cases (linesOf cs) with ⟨ss, lines, hss, -⟩ | ⟨d, hd, -⟩
  · rw [check_of_ok hp hlines hss, checkStatements, review_eq (reviewable_of_parseLines hss)]
    exact .success rfl rfl
  · rw [check_of_fault hp hlines hd]
    exact Outcome.answers_refused d.message

theorem exists_page (hread : t.readFile shown = .ok bytes)
    (hdec : Text.decodeUtf8 bytes = .ok cs) :
    ∃ layout, page t shown = .ok layout ∧ layout.ShowsEither := by
  have hlines := readSource_of_content hread hdec
  rcases transpile_cases (linesOf cs) with ⟨ss, lines, -, hcompile⟩ | ⟨d, -, hd⟩
  · exact ⟨_, page_of_ok hlines hcompile, showsEither_diagram ..⟩
  · exact ⟨_, page_of_fault hlines hd, showsEither_diagnostic ..⟩

/-- A text that does not compile has a diagnostic. -/
theorem Buildable.exists_diagnostic (h : Buildable t p q bytes)
    (hdec : Text.decodeUtf8 bytes = .ok cs) {f : BuildFault}
    (hf : (transpileFile t p q fenced).1 = .error f) : ∃ d, f = .compile (.diagnostic d) := by
  rcases transpile_cases (linesOf cs) with ⟨ss, lines, -, hlines⟩ | ⟨d, -, hd⟩
  · obtain ⟨t', ht', -⟩ := h.transpileFile_of_ok hdec hlines
    rw [ht'] at hf; cases hf
  · rw [h.transpileFile_of_fault hdec hd] at hf
    exact ⟨d, (Except.error.inj hf).symm⟩

/-! ## Bytes that are no text -/

variable {f : Text.Utf8Fault}

theorem Buildable.transpileFile_of_garbled (h : Buildable t p q bytes)
    (hdec : Text.decodeUtf8 bytes = .error f) :
    transpileFile t p q fenced = (.error (.file (.notText f)), t) := by
  obtain ⟨target, origin, hq, hp, hne⟩ := h.apart
  simp [transpileFile, Flowchart.compileFile, hq, hp, hne, readSource_of_garbled h.content hdec,
    bind, Except.bind, Except.mapError, BuildFault.ofFile]

theorem check_of_garbled (hp : t.resolve (.ofText source) = .ok p)
    (hread : t.readFile p = .ok bytes) (hdec : Text.decodeUtf8 bytes = .error f) :
    check t source = .failed (.file (.notText f)) := by
  rw [check, hp]
  simp only [readSource_of_garbled hread hdec]

theorem page_of_garbled (hread : t.readFile shown = .ok bytes)
    (hdec : Text.decodeUtf8 bytes = .error f) : page t shown = .error (.file (.notText f)) := by
  rw [page, readSource_of_garbled hread hdec]

/-- A source that holds a text is answered by build, check and preview alike, and its compilation
fails with nothing but a diagnostic. If its bytes are no text, that fault leaves all of them, and
nothing is written or reported. -/
theorem text_answered_garbled_escapes {source' output' : Path}
    (h : Prepared t source output? p q bytes) (hshown : t.readFile shown = .ok bytes)
    (hlib : Buildable t source' output' bytes) (noFence fenced : Bool) :
    (∀ cs, Text.decodeUtf8 bytes = .ok cs →
      (build t source output? .beside noFence).1.Answers ∧ (check t source).Answers ∧
      (∃ layout, page t shown = .ok layout ∧ layout.ShowsEither) ∧
      ∀ f, (transpileFile t source' output' fenced).1 = .error f →
        ∃ d, f = .compile (.diagnostic d)) ∧
    (∀ f, Text.decodeUtf8 bytes = .error f →
      build t source output? .beside noFence = (.failed (.file (.notText f)), t) ∧
      check t source = .failed (.file (.notText f)) ∧
      page t shown = .error (.file (.notText f)) ∧
      transpileFile t source' output' fenced = (.error (.file (.notText f)), t)) := by
  refine ⟨fun cs hdec => ⟨h.build_answers hdec, check_answers h.source_path h.content hdec,
    exists_page hshown hdec, fun f hf => hlib.exists_diagnostic hdec hf⟩, fun f hdec => ?_⟩
  refine ⟨?_, check_of_garbled h.source_path h.content hdec, page_of_garbled hshown hdec,
    hlib.transpileFile_of_garbled hdec⟩
  exact h.build_of_error (h.transpileFile_of_garbled hdec)

end

/-- A source that ends inside a call, reached through a link, and the default output beside it. The
library takes both paths as they are written. -/
theorem text_answered_garbled_escapes_unterminated_call :
    let text := "Entity(a"
    let t : FileTree :=
      ⟨[(["d"], .directory), (["d", "s"], .file (Text.encodeUtf8 text)), (["l"], .link "d")], ["d"]⟩
    Prepared t "../l/s" none (pathAt ["d", "s"]) (pathAt ["d", "s.md"]) (Text.encodeUtf8 text) ∧
      t.readFile (.ofText "s") = .ok (Text.encodeUtf8 text) ∧
      Buildable t (.ofText "../l/s") (.ofText "n/o") (Text.encodeUtf8 text) ∧
      (build t "../l/s" none .beside false).1.Answers ∧ (check t "../l/s").Answers ∧
      ∃ layout, page t (.ofText "s") = .ok layout ∧ layout.ShowsEither := by
  intro text t
  have hprepared : Prepared t "../l/s" none (pathAt ["d", "s"]) (pathAt ["d", "s.md"])
      (Text.encodeUtf8 text) :=
    { content := by decide +kernel
      apart := ⟨pathAt ["d", "s.md"], pathAt ["d", "s"], by decide +kernel, by decide +kernel,
        by decide⟩
      writable := ⟨t, t.insert ["d", "s.md"] (.file []), by decide +kernel, by decide +kernel⟩
      source_path := by decide +kernel
      no_settings := by decide +kernel
      output_path := by decide +kernel }
  have hshown : t.readFile (.ofText "s") = .ok (Text.encodeUtf8 text) := by decide +kernel
  have hlib : Buildable t (.ofText "../l/s") (.ofText "n/o") (Text.encodeUtf8 text) :=
    { content := by decide +kernel
      apart := ⟨pathAt ["d", "n", "o"], pathAt ["d", "s"], by decide +kernel, by decide +kernel,
        by decide⟩
      writable := ⟨t.insert ["d", "n"] .directory,
        (t.insert ["d", "n"] .directory).insert ["d", "n", "o"] (.file []), by decide +kernel,
        by decide +kernel⟩ }
  have hdec : Text.decodeUtf8 (Text.encodeUtf8 text) = .ok text.toList := by decide +kernel
  obtain ⟨hbuild, hcheck, hpage, -⟩ :=
    (text_answered_garbled_escapes hprepared hshown hlib false true).1 _ hdec
  exact ⟨hprepared, hshown, hlib, hbuild, hcheck, hpage⟩

/-- The byte `0xff` stands in no text, and neither command has an answer to it. -/
theorem lone_byte_not_answered :
    let t : FileTree := ⟨[(["s"], .file [0xff])], []⟩
    Prepared t "s" none (pathAt ["s"]) (pathAt ["s.md"]) [0xff] ∧
      ¬(build t "s" none .beside false).1.Answers ∧ ¬(check t "s").Answers ∧
      (∀ layout, page t (.ofText "s") ≠ .ok layout) ∧
      ∃ f, transpileFile t (.ofText "s") (.ofText "o") true = (.error (.file f), t) := by
  intro t
  have hprepared : Prepared t "s" none (pathAt ["s"]) (pathAt ["s.md"]) [0xff] :=
    { content := by decide +kernel
      apart := ⟨pathAt ["s.md"], pathAt ["s"], by decide +kernel, by decide +kernel, by decide⟩
      writable := ⟨t, t.insert ["s.md"] (.file []), by decide +kernel, by decide +kernel⟩
      source_path := by decide +kernel
      no_settings := by decide +kernel
      output_path := by decide +kernel }
  have hlib : Buildable t (.ofText "s") (.ofText "o") [0xff] :=
    { content := by decide +kernel
      apart := ⟨pathAt ["o"], pathAt ["s"], by decide +kernel, by decide +kernel, by decide⟩
      writable := ⟨t, t.insert ["o"] (.file []), by decide +kernel, by decide +kernel⟩ }
  have hdec : Text.decodeUtf8 [0xff] = .error ⟨0xff, 0, 1, .invalidStart⟩ := by decide +kernel
  have hfailed (f : Failure) : ¬(Outcome.failed f).Answers := by rintro (⟨⟨⟩, -⟩ | ⟨_, ⟨⟩, -⟩)
  refine ⟨hprepared, ?_, ?_, ?_, _, hlib.transpileFile_of_garbled hdec⟩
  · rw [hprepared.build_of_error (hprepared.transpileFile_of_garbled hdec)]
    exact hfailed _
  · rw [check_of_garbled hprepared.source_path hprepared.content hdec]
    exact hfailed _
  · rw [page_of_garbled hlib.content hdec]
    simp

end Command

end Flowchart

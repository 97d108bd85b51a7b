import Flowchart.Proofs.Encoding
import Flowchart.Proofs.SettingsSchema
import Flowchart.Proofs.YamlPairs

/-!
# Settings as a text

Settings are written with a line for each field, in any order, and texts
between single quotes. A directory that is not set has no line. What is written
so is loaded as it was.
-/

namespace Flowchart.Settings

open Schema Value Text Yaml

/-! ## Lines -/

/-- The characters that may stand in a line of a YAML text, the tab left out. -/
def isPrintable (c : Char) : Bool :=
  (decide (0x20 ≤ c.toNat) && decide (c.toNat ≤ 0x7e)) ||
    (decide (0xa0 ≤ c.toNat) && decide (c.toNat ≤ 0xfffd) && c != '\u2028' && c != '\u2029') ||
    decide (0x10000 ≤ c.toNat)

/-- A text that can be printed on a line. -/
def PrintableText (t : RawText) : Prop := ∀ p ∈ t, ∃ c, p = .char c ∧ isPrintable c = true

/-- The texts of the settings can be printed on a line. -/
structure Printable (s : Settings) : Prop where
  suffix : PrintableText s.suffix
  directory : ∀ d ∈ s.directory?, PrintableText d

/-- The characters of a text. -/
def charsOf (t : RawText) : List Char := t.filterMap CodePoint.char?

/-- The lines that settings are written with. -/
def lines (s : Settings) : List Yaml.Line :=
  ⟨"output-suffix".toList, .quoted (charsOf s.suffix)⟩ ::
    (s.directory?.toList.map fun d => ⟨"output-directory".toList, .quoted (charsOf d)⟩) ++
    [⟨"fenced".toList, .flag s.fenced⟩]

section
variable {c : Char} {t : RawText} {s : Settings} {l : Yaml.Line} {ls : List Yaml.Line}

theorem PrintableText.codePoints_charsOf (h : PrintableText t) : codePoints (charsOf t) = t := by
  induction t with
  | nil => rfl
  | cons p t ih =>
    obtain ⟨⟨c, rfl, -⟩, ht⟩ := List.forall_mem_cons.1 h
    exact congrArg (CodePoint.char c :: ·) (ih ht)

theorem PrintableText.of_mem_charsOf (h : PrintableText t) (hc : c ∈ charsOf t) :
    isPrintable c = true := by
  obtain ⟨p, hp, hpc⟩ := List.mem_filterMap.1 hc
  obtain ⟨c', rfl, hc'⟩ := h p hp
  cases hpc
  exact hc'

theorem printableText_ofString {s : String} (h : s.toList.all isPrintable = true) :
    PrintableText s := by
  intro p hp
  obtain ⟨c, hc, rfl⟩ := List.mem_map.1 hp
  exact ⟨c, rfl, List.all_eq_true.1 h c hc⟩

theorem isAllowed_of_isPrintable (h : isPrintable c = true) : isAllowed c = true := by
  simp only [isPrintable, isAllowed, Bool.or_eq_true, Bool.and_eq_true] at h ⊢
  rcases h with (h | h) | h
  · exact .inl (.inl (.inr h))
  · exact .inl (.inr h.1.1)
  · exact .inr h

theorem isBreak_of_isPrintable (h : isPrintable c = true) : isBreak c = false :=
  isBreak_of_class (by decide) h

theorem ne_of_isPrintable (h : isPrintable c = true) : c ≠ '\r' :=
  ne_of_beq_false (beq_eq_false_of_class h (by decide))

/-- A line is that of the suffix, of the directory or of the fence. -/
theorem mem_lines : l ∈ s.lines ↔
    l = ⟨"output-suffix".toList, .quoted (charsOf s.suffix)⟩ ∨
      (∃ d ∈ s.directory?, l = ⟨"output-directory".toList, .quoted (charsOf d)⟩) ∨
        l = ⟨"fenced".toList, .flag s.fenced⟩ := by
  simp [lines, eq_comm]

/-- The key that a field is written with. -/
def Field.word : Field → String
  | suffix => "output-suffix"
  | directory => "output-directory"
  | fenced => "fenced"

theorem Field.word_mem (f : Field) : (f.word : RawText) ∈ f.spellings := by
  cases f <;> decide

theorem Field.isKeyWord_word (f : Field) : IsKeyWord f.word.toList := by
  cases f <;> exact ⟨by decide, by decide +kernel, by decide⟩

/-- A line has a field for its key, and a value that can be printed. -/
theorem Printable.line (h : s.Printable) (hl : l ∈ s.lines) :
    (∃ f : Field, l.key = f.word.toList) ∧ ∀ c ∈ l.value.content, isPrintable c = true := by
  have hflag (b : Bool) : (Written.flagWord b).all isPrintable = true := by cases b <;> decide
  rcases mem_lines.1 hl with rfl | ⟨d, hd, rfl⟩ | rfl
  · exact ⟨⟨.suffix, rfl⟩, fun c => h.suffix.of_mem_charsOf⟩
  · exact ⟨⟨.directory, rfl⟩, fun c => (h.directory d hd).of_mem_charsOf⟩
  · exact ⟨⟨.fenced, rfl⟩, List.all_eq_true.1 (hflag s.fenced)⟩

theorem Printable.proper (h : s.Printable) (hl : l ∈ s.lines) : l.Proper := by
  obtain ⟨⟨f, hkey⟩, hvalue⟩ := h.line hl
  exact ⟨hkey ▸ f.isKeyWord_word,
    Written.onLine_of_content fun c hc => isBreak_of_isPrintable (hvalue c hc)⟩

theorem Printable.of_mem_chars (h : s.Printable) (hl : l ∈ s.lines) (hc : c ∈ l.chars) :
    isPrintable c = true := by
  have hmarks : [':', ' ', '\''].all isPrintable = true := by decide
  have hword (f : Field) : f.word.toList.all isPrintable = true := by cases f <;> decide
  obtain ⟨⟨f, hkey⟩, hvalue⟩ := h.line hl
  rcases Line.mem_chars hc with hc | hc | hc
  · exact List.all_eq_true.1 (hword f) c (hkey ▸ hc)
  · exact hvalue c hc
  · exact List.all_eq_true.1 hmarks c hc

/-! ## The members -/

theorem Printable.members_eq (h : s.Printable) : s.lines.map Line.member =
    (("output-suffix" : RawText), .str s.suffix) ::
      (s.directory?.toList.map fun d => (("output-directory" : RawText), .str d)) ++
      [(("fenced" : RawText), .bool s.fenced)] := by
  have hsuffix := h.suffix.codePoints_charsOf
  cases hd : s.directory? with
  | none => simp [lines, Line.member, Written.value, RawText.ofString, hd, hsuffix]
  | some d =>
    have hdirectory := (h.directory d hd).codePoints_charsOf
    simp [lines, Line.member, Written.value, RawText.ofString, hd, hsuffix, hdirectory]

/-- The lines leave out a directory that is not set, and nothing else. -/
theorem Printable.dumps_lines (hs : s.Printable) :
    Dumps (fun f => f.word) s (s.lines.map Line.member) where
  nodup := by
    rw [hs.members_eq]
    cases s.directory? with
    | none => simp
    | some d => simp
  of_mem k v h := by
    rw [hs.members_eq, List.mem_append, List.mem_cons, List.mem_map, List.mem_singleton] at h
    rcases h with (h | ⟨d, hd, h⟩) | h
    · cases h
      exact ⟨.suffix, rfl, rfl⟩
    · cases h
      exact ⟨.directory, rfl, by rw [Field.value, Option.mem_toList.1 hd]; rfl⟩
    · cases h
      exact ⟨.fenced, rfl, rfl⟩
  mem f hne := by
    rw [hs.members_eq]
    cases f with
    | suffix => simp [Field.word, Field.value]
    | directory =>
      cases hd : s.directory? with
      | none => simp [Field.value, hd] at hne
      | some d => simp [Field.word, Field.value, hd]
    | fenced => simp [Field.word, Field.value]

theorem Dumps.perm {spell : Field → RawText} {members other : List (RawText × Value)}
    (h : Dumps spell s members) (hperm : other.Perm members) : Dumps spell s other where
  nodup := (hperm.map Prod.fst).nodup_iff.2 h.nodup
  of_mem k v hmem := h.of_mem k v (hperm.mem_iff.1 hmem)
  mem f hne := hperm.mem_iff.2 (h.mem f hne)

/-- Settings that are written to a file, a line for each field, are loaded from it as they
were, whatever the order of the lines. -/
theorem written_settings_load_back {v : Value} (hv : ofValue v = .ok s) (hs : s.Printable)
    (hls : ls.Perm s.lines) (final : Bool) {t : FileTree} {p : Path}
    (hfile : t.readFile p = .ok (encodeUtf8 (String.ofList (linesText ls final)))) :
    load t p = .ok s := by
  have hmem {l : Yaml.Line} (hl : l ∈ ls) : l ∈ s.lines := hls.mem_iff.1 hl
  have hchars : ∀ c ∈ linesText ls final, isAllowed c = true ∧ c ≠ '\r' := by
    intro c hc
    rcases mem_linesText hc with rfl | ⟨l, hl, hc⟩
    · decide
    · have hprintable := hs.of_mem_chars (hmem hl) hc
      exact ⟨isAllowed_of_isPrintable hprintable, ne_of_isPrintable hprintable⟩
  have hdumps : Dumps (fun f => f.word) s (ls.map Line.member) :=
    hs.dumps_lines.perm (hls.map Line.member)
  have hne : ls ≠ [] := by
    rintro rfl
    cases hls.length_eq
  have hyaml : Yaml.load (linesText ls final) = .ok (object (ls.map Line.member)) :=
    load_linesText hne (fun l hl => hs.proper (hmem hl)) hdumps.nodup fun c hc => (hchars c hc).1
  have hvalue : ofValue (object (ls.map Line.member)) = .ok s :=
    hdumps.ofValue_eq Field.word_mem (isSuffix_of_ofValue hv)
  have hofText : ofText p.text (linesText ls final) = .ok s := by
    rw [ofText, hyaml]
    show (ofValue (object (ls.map Line.member))).mapError _ = _
    rw [hvalue]
    rfl
  rw [load_of_text hfile (decodeUtf8_encodeUtf8 _), String.toList_ofList,
    unifyNewlines_eq_self fun c hc => (hchars c hc).2, hofText]

/-- Quotes within a text, blanks at its ends, and marks that mean something outside of quotes. -/
theorem written_settings_load_back_marks_and_quotes :
    let s : Settings := ⟨".it's", some " #1: 'é' ", false⟩
    let text := "fenced: false\noutput-directory: ' #1: ''é'' '\noutput-suffix: '.it''s'\n"
    let t : FileTree := ⟨[(["a"], .file (encodeUtf8 text))], []⟩
    ofValue (object (dump (fun f => f.word) s)) = .ok s ∧ s.Printable ∧
      String.ofList (linesText s.lines.reverse true) = text ∧
      t.readFile (.ofText "a") = .ok (encodeUtf8 text) ∧ load t (.ofText "a") = .ok s := by
  intro s text t
  have hv : ofValue (object (dump (fun f => f.word) s)) = .ok s := by decide
  have hs : s.Printable :=
    ⟨printableText_ofString (by decide), fun d hd => by
      cases hd; exact printableText_ofString (by decide)⟩
  have htext : String.ofList (linesText s.lines.reverse true) = text := by decide +kernel
  have hfile : t.readFile (.ofText "a") = .ok (encodeUtf8 text) := by decide +kernel
  exact ⟨hv, hs, htext, hfile,
    written_settings_load_back hv hs (List.reverse_perm s.lines) true (htext ▸ hfile)⟩

end

end Flowchart.Settings

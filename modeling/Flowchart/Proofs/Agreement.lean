import Flowchart.Command.Run
import Flowchart.Proofs.Colours
import Flowchart.Proofs.Review
import Flowchart.Proofs.SafeBuild

/-!
# Check, build and preview agree

A check parses a source and reviews its statements, a build generates its
document and writes it, and the preview shows the document or the fault. All
three read the source alike, and behind the parser nothing fails, so each of
them succeeds if and only if the source parses.
-/

namespace Flowchart

/-! ## Components of a page -/

mutual

/-- A component and all components in it. -/
def Component.all : Component → List Component
  | .mk kind content attributes => .mk kind content attributes :: content.all

/-- The components in a content. -/
def Content.all : Content → List Component
  | .nothing | .text _ => []
  | .one c => c.all
  | .many cs => Content.allOf cs

def Content.allOf : List Component → List Component
  | [] => []
  | c :: cs => c.all ++ Content.allOf cs

end

namespace Component

def content : Component → Content
  | .mk _ content _ => content

def id? : Component → Option String
  | .mk _ _ attributes => attributes.id?

/-- What the components with an id hold. -/
def withId (c : Component) (id : String) : List Content :=
  (c.all.filter (·.id? == some id)).map (·.content)

end Component

/-- The page has two ids of its own; all others are those of its body. -/
theorem withId_pageAround (source : Path) (body : Component) {id : String} (h : id ≠ "preview")
    (h' : id ≠ "render-status") : (pageAround source body).withId id = body.withId id := by
  simp [Component.withId, pageAround, Component.div, Component.all, Content.all, Content.allOf,
    Component.id?, h.symm, h'.symm]

section
variable (document message : String)

theorem withId_diagramBody :
    (diagramBody document).withId "diagram" = [.text document] ∧
      (diagramBody document).withId "mermaid-source" = [.text document] ∧
      (diagramBody document).withId "diagnostic" = [] :=
  ⟨rfl, rfl, rfl⟩

theorem withId_diagnosticBody :
    (diagnosticBody message).withId "diagram" = [] ∧
      (diagnosticBody message).withId "diagnostic" = [.text ("Error: " ++ message)] :=
  ⟨rfl, rfl⟩

end

/-! ## Reading and writing -/

open FileTree

/-- A file can be written where the path leads, once the directories above it are made. -/
def FileTree.Writable (t : FileTree) (p : Path) : Prop :=
  ∃ t₁ t₂, t.ensureDirectories p.parent = (.ok (), t₁) ∧ t₁.writeFile p [] = .ok t₂

section
variable {t t' : FileTree} {p output : Path}

theorem isFile_of_readFile {bytes : List UInt8} (h : t.readFile p = .ok bytes) :
    t.isFile p = .ok true := by
  obtain ⟨l, hl⟩ := readFile_eq_ok_iff.1 h
  simp [isFile, entry?, hl, Except.map]

/-- Whether a file can be written does not depend on its content. -/
theorem exists_writeFile {bytes : List UInt8} (h : t.writeFile p bytes = .ok t')
    (bytes' : List UInt8) : ∃ t'', t.writeFile p bytes' = .ok t'' := by
  obtain ⟨f, hf, -, hentry, -⟩ := writeFile_ok h
  refine ⟨t.insert f.location (.file bytes'), ?_⟩
  rw [writeFile, hf]
  cases f with
  | absent l => rfl
  | entry l e =>
    cases e with
    | file old => rfl
    | directory => simp [Found.entry?] at hentry
    | link target => simp [Found.entry?] at hentry

theorem FileTree.Writable.writeDocument (h : t.Writable output) (ls : List String)
    (fenced : Bool) : ∃ t', writeDocument t ls output fenced = (.ok (), t') := by
  obtain ⟨t₁, t₂, hdirs, hwrite⟩ := h
  obtain ⟨t', ht'⟩ := exists_writeFile hwrite (Text.encodeUtf8 (renderDocument fenced ls))
  exact ⟨t', by simp [Flowchart.writeDocument, hdirs, ht']⟩

/-- A document is read back where it is written. -/
theorem readFile_of_writeDocument {ls : List String} {fenced : Bool}
    (h : writeDocument t ls output fenced = (.ok (), t')) :
    t'.readFile output = .ok (Text.encodeUtf8 (renderDocument fenced ls)) := by
  obtain ⟨t₁, f, hgrow, hl, hroot, hf, rfl⟩ := writeDocument_ok h
  have hwalk := (locate_eq_ok_iff.1 hl).2
  have hkept := find?_insert_file (Text.encodeUtf8 (renderDocument fenced ls)) hroot
    (by rwa [hwalk.find?])
  exact readFile_of_kept hl (by decide) hf (insert_cwd ..) (hgrow.writes _ hroot).written hkept

theorem readSource_of_content {bytes : List UInt8} {cs : List Char}
    (hread : t.readFile p = .ok bytes) (hdec : Text.decodeUtf8 bytes = .ok cs) :
    readSource t p = .ok (sourceLines (String.ofList (Text.unifyNewlines cs))) := by
  simp [readSource, readText, hread, hdec, bind, Except.bind, pure, Except.pure, Except.map]

/-- Bytes that are no UTF-8 have no lines. -/
theorem readSource_of_garbled {bytes : List UInt8} {f : Text.Utf8Fault}
    (hread : t.readFile p = .ok bytes) (hdec : Text.decodeUtf8 bytes = .error f) :
    readSource t p = .error (.notText f) := by
  simp [readSource, readText, hread, hdec, bind, Except.bind, Except.map]

end

namespace Command

/-! ## What each of them does -/

/-- The lines of a source with the given characters. -/
def linesOf (cs : List Char) : List SourceLine :=
  sourceLines (String.ofList (Text.unifyNewlines cs))

/-- A document can be built: the source is a file with the given bytes, and the output can be
written and is not the source. -/
structure Buildable (t : FileTree) (source output : Path) (bytes : List UInt8) : Prop where
  content : t.readFile source = .ok bytes
  /-- Both paths are resolved to tell them apart. -/
  apart : ∃ target origin, t.resolve output = .ok target ∧ t.resolve source = .ok origin ∧
    target ≠ origin
  writable : t.Writable output

/-- The commands can work: the source leads to a file with no settings beside it, and its document
can be built. -/
structure Prepared (t : FileTree) (source : String) (output? : Option String) (p q : Path)
    (bytes : List UInt8) : Prop extends Buildable t p q bytes where
  source_path : t.resolve (.ofText source) = .ok p
  no_settings : t.isThere (p.parent.join (.ofText Settings.fileName)) = .ok false
  output_path : outputFor t p {} output? = .ok q

section
variable {t t' : FileTree} {p q : Path} {bytes : List UInt8} {cs : List Char} {ls : List String}
  {d : Diagnostic} {fenced : Bool}

theorem Buildable.compileFile (h : Buildable t p q bytes)
    (hdec : Text.decodeUtf8 bytes = .ok cs) :
    compileFile t p q = (transpile (linesOf cs)).mapError .compile := by
  obtain ⟨target, origin, hq, hp, hne⟩ := h.apart
  simp [Flowchart.compileFile, hq, hp, hne, readSource_of_content h.content hdec, bind,
    Except.bind, Except.mapError, linesOf]

theorem Buildable.transpileFile_of_ok (h : Buildable t p q bytes)
    (hdec : Text.decodeUtf8 bytes = .ok cs) (hls : transpile (linesOf cs) = .ok ls) :
    ∃ t', transpileFile t p q fenced = (.ok ls, t') ∧
      t'.readFile q = .ok (Text.encodeUtf8 (renderDocument fenced ls)) := by
  obtain ⟨t', ht'⟩ := h.writable.writeDocument ls fenced
  refine ⟨t', ?_, readFile_of_writeDocument ht'⟩
  simp [transpileFile, h.compileFile hdec, hls, ht', Except.mapError]

theorem Buildable.transpileFile_of_fault (h : Buildable t p q bytes)
    (hdec : Text.decodeUtf8 bytes = .ok cs)
    (hd : transpile (linesOf cs) = .error (.diagnostic d)) :
    transpileFile t p q fenced = (.error (.compile (.diagnostic d)), t) := by
  simp [transpileFile, h.compileFile hdec, hd, Except.mapError]

/-- What a build does is up to the compilation of the source that is there. -/
theorem Prepared.build_eq {source : String} {output? : Option String} {noFence : Bool}
    (h : Prepared t source output? p q bytes) :
    build t source output? .beside noFence = buildSource t p output? none noFence := by
  rw [build, h.source_path]
  simp only [isFile_of_readFile h.content]

theorem Prepared.build_of_ok {source : String} {output? : Option String} {noFence : Bool}
    (h : Prepared t source output? p q bytes)
    (hls : transpileFile t p q (!noFence) = (.ok ls, t')) :
    build t source output? .beside noFence =
      ({ result := .ok 0, stdout := wroteLine ls.length q }, t') := by
  rw [h.build_eq, buildSource, settingsFor, Settings.find, h.no_settings]
  simp only [h.output_path, Bool.true_and, hls]

theorem Prepared.build_of_error {source : String} {output? : Option String} {noFence : Bool}
    (h : Prepared t source output? p q bytes) {f : BuildFault}
    (hf : transpileFile t p q (!noFence) = (.error f, t')) :
    build t source output? .beside noFence = (.ofBuildFault f, t') := by
  rw [h.build_eq, buildSource, settingsFor, Settings.find, h.no_settings]
  simp only [h.output_path, Bool.true_and, hf]

end

section
variable {t : FileTree} {source : String} {p : Path} {ls : List SourceLine} {d : Diagnostic}

theorem check_of_ok {ss : List Statement} (hp : t.resolve (.ofText source) = .ok p)
    (hread : readSource t p = .ok ls) (hss : parseLines ls = .ok ss) :
    check t source = checkStatements ss := by
  rw [check, hp]
  simp only [hread, hss]

theorem check_of_fault (hp : t.resolve (.ofText source) = .ok p)
    (hread : readSource t p = .ok ls) (hd : parseLines ls = .error d) :
    check t source = .refused d.message := by
  rw [check, hp]
  simp only [hread, hd]

theorem page_of_ok {lines : List String} (hread : readSource t p = .ok ls)
    (hlines : transpile ls = .ok lines) :
    page t p = .ok (pageAround p (diagramBody (renderDocument false lines))) := by
  rw [page, hread]
  simp only [hlines]

theorem page_of_fault (hread : readSource t p = .ok ls)
    (hd : transpile ls = .error (.diagnostic d)) :
    page t p = .ok (pageAround p (diagnosticBody d.message)) := by
  rw [page, hread]
  simp only [hd]

end

/-- The commands can work: the source is a file in UTF-8 with no settings beside it, and the output
can be written and is not the source. -/
structure Ready (t : FileTree) (source output : String) (p q : Path) (cs : List Char) : Prop where
  source_path : t.resolve (.ofText source) = .ok p
  content : ∃ bytes, t.readFile p = .ok bytes ∧ Text.decodeUtf8 bytes = .ok cs
  no_settings : t.isThere (p.parent.join (.ofText Settings.fileName)) = .ok false
  output_given : output ≠ ""
  output_path : t.resolve (.ofText output) = .ok q
  /-- A build resolves both paths once more to tell them apart. -/
  apart : ∃ target origin, t.resolve q = .ok target ∧ t.resolve p = .ok origin ∧ target ≠ origin
  writable : t.Writable q

section
variable {t : FileTree} {source output : String} {p q : Path} {cs : List Char}

/-- Every path to the source gives its lines. -/
theorem Ready.readSource (h : Ready t source output p q cs) {shown : Path}
    (hshown : t.readFile shown = t.readFile p) : readSource t shown = .ok (linesOf cs) := by
  obtain ⟨bytes, hread, hdec⟩ := h.content
  exact readSource_of_content (hshown.trans hread) hdec

theorem Ready.outputFor (h : Ready t source output p q cs) (settings : Settings) :
    outputFor t p settings (some output) = .ok q := by
  have hgiven : (some output).filter (!·.isEmpty) = some output := by
    simp [Option.filter, h.output_given]
  rw [Command.outputFor, hgiven]
  simp only [h.output_path]
  rfl

theorem Ready.exists_prepared (h : Ready t source output p q cs) :
    ∃ bytes, Prepared t source (some output) p q bytes ∧ Text.decodeUtf8 bytes = .ok cs := by
  obtain ⟨bytes, hread, hdec⟩ := h.content
  exact ⟨bytes, ⟨⟨hread, h.apart, h.writable⟩, h.source_path, h.no_settings, h.outputFor {}⟩, hdec⟩

/-- A build of a source that compiles. -/
theorem Ready.build_of_ok (h : Ready t source output p q cs) {ls : List String}
    (hls : transpile (linesOf cs) = .ok ls) :
    ∃ t', build t source (some output) .beside true =
        ({ result := .ok 0, stdout := wroteLine ls.length q }, t') ∧
      t'.readFile q = .ok (Text.encodeUtf8 (renderDocument false ls)) := by
  obtain ⟨bytes, hprep, hdec⟩ := h.exists_prepared
  obtain ⟨t', ht', hread⟩ := hprep.transpileFile_of_ok hdec hls
  exact ⟨t', hprep.build_of_ok ht', hread⟩

end

/-! ## Lines on a terminal -/

/-- An error line on a terminal: its first word is red. -/
def redErrorLine (message : String) : String :=
  String.ofList Colour.red.opening ++ "Error:" ++ String.ofList Colour.closing ++ " " ++ message ++
    "\n"

theorem stderr_refused (message : String) :
    (Outcome.refused message).stderr = redErrorLine message := by
  have hred : Colour.red.paint "Error:" =
      String.ofList Colour.red.opening ++ "Error:" ++ String.ofList Colour.closing := by
    decide +kernel
  show Colour.red.paint "Error:" ++ (" " ++ message ++ "\n") = redErrorLine message
  rw [hred, redErrorLine]
  simp only [String.append_assoc]

section
variable {t : FileTree} {source output : String} {p q shown : Path} {cs : List Char}

end

end Command

end Flowchart

import Flowchart.Cursor
import Flowchart.FileTree.Resolve
import Flowchart.Mermaid
import Flowchart.Review
import Flowchart.Settings

/-!
# Building documents

A diagram is compiled in memory before anything is written, so that a source
with a fault leaves no document behind. The document never takes the place of
its own source.
-/

namespace Flowchart

/-- Why a diagram does not compile. -/
inductive CompileFault where
  | diagnostic (d : Diagnostic)
  | missingPiece (m : MissingPiece)
  deriving DecidableEq, Repr

def CompileFault.message : CompileFault → String
  | diagnostic d => d.message
  | missingPiece m => m.message

/-- The flowchart lines of a diagram. -/
def transpile (ls : List SourceLine) : Except CompileFault (List String) :=
  match parseLines ls with
  | .error d => .error (.diagnostic d)
  | .ok ss => (generate ss).mapError .missingPiece

/-! ## In memory -/

/-- What a source text amounts to. -/
structure Compiled where
  statements : List Statement
  document : String
  warnings : List Warning
  deriving DecidableEq, Repr

inductive TextFault where
  | compile (fault : CompileFault)
  | review (fault : ReviewFailure)
  deriving DecidableEq, Repr

/-- Compiles and reviews a text. -/
def compileText (source : String) (fenced : Bool) : Except TextFault Compiled := do
  let ss ← (parseLines (sourceLines source)).mapError (.compile ∘ .diagnostic)
  let ls ← (generate ss).mapError (.compile ∘ .missingPiece)
  let ws ← (review ss).mapError .review
  return ⟨ss, renderDocument fenced ls, ws⟩

/-! ## In a file tree -/

/-- The lines of a source file. -/
def readSource (t : FileTree) (p : Path) : Except FileFault (List SourceLine) :=
  (t.readText p).map fun cs => sourceLines (String.ofList cs)

/-- Writes a document, and makes the directories above it. -/
def writeDocument (t : FileTree) (ls : List String) (p : Path) (fenced : Bool) :
    Except FileFault Unit × FileTree :=
  match t.ensureDirectories p.parent with
  | (.error f, t) => (.error f, t)
  | (.ok (), t) =>
    match t.writeFile p (Text.encodeUtf8 (renderDocument fenced ls)) with
    | .error f => (.error f, t)
    | .ok t => (.ok (), t)

/-- Why a document is not built. The last one is not reported as a fault of the build. -/
inductive BuildFault where
  | overwritesSource (output : String)
  | unreadable (source : String) (fault : FileFault)
  | unwritable (output : String) (fault : FileFault)
  | compile (fault : CompileFault)
  | file (fault : FileFault)
  deriving DecidableEq, Repr

namespace BuildFault

def message : BuildFault → String
  | overwritesSource output => s!"Output file '{output}' would overwrite the source file"
  | unreadable source fault => s!"Cannot read source file '{source}': {fault.message}"
  | unwritable output fault => s!"Cannot write output file '{output}': {fault.message}"
  | compile fault => fault.message
  | file fault => fault.message

/-- A refusal of the system is reported through `wrap`, any other fault as it is. -/
def ofFile (wrap : FileFault → BuildFault) : FileFault → BuildFault
  | .os e path => wrap (.os e path)
  | f => .file f

end BuildFault

/-- What a source compiles to, given where its document goes. -/
def compileFile (t : FileTree) (source output : Path) : Except BuildFault (List String) := do
  let target ← (t.resolve output).mapError .file
  let origin ← (t.resolve source).mapError .file
  if target = origin then .error (.overwritesSource output.text)
  let ls ← (readSource t source).mapError (.ofFile (.unreadable source.text))
  (transpile ls).mapError .compile

/-- Compiles a source and writes its document. The tree that is left holds the directories made
for the document also when it cannot be written. -/
def transpileFile (t : FileTree) (source output : Path) (fenced : Bool) :
    Except BuildFault (List String) × FileTree :=
  match compileFile t source output with
  | .error f => (.error f, t)
  | .ok ls =>
    match writeDocument t ls output fenced with
    | (.error f, t) => (.error (.ofFile (.unwritable output.text) f), t)
    | (.ok (), t) => (.ok ls, t)

/-- Where the document of a source goes: next to the source, or into a directory that is named
from there. -/
def defaultOutput (source : Path) (settings : Settings) : Except SuffixFault Path := do
  let target ← source.withSuffix settings.suffix
  match settings.directory? with
  | none => return target
  | some directory =>
    return (source.parent.join (.ofText directory)).join (.ofText target.name)

end Flowchart

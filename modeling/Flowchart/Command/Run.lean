import Flowchart.Command.Arguments
import Flowchart.Preview
import Flowchart.Settings.File
import Flowchart.Terminal

/-!
# Running commands

A command is a function on a file tree: it leaves a tree and an outcome. A
fault that a user can mend is reported as an error line and an exit code; what
no command reports leaves as a failure. Printing does not fail, whatever the
encoding of the terminal.
-/

namespace Flowchart.Command

/-- A fault that no command reports. -/
inductive Failure where
  | file (f : FileFault)
  | scalar (f : Yaml.Fault)
  | suffix (f : SuffixFault)
  | missingPiece (m : MissingPiece)
  | review (f : ReviewFailure)
  /-- A settings file is asked for and none is named. -/
  | noSettingsPath
  deriving DecidableEq, Repr

def Failure.message : Failure → String
  | file f => f.message
  | scalar f => f.message
  | suffix f => f.message
  | missingPiece m => m.message
  | review f => f.message
  | noSettingsPath => "expected str, bytes or os.PathLike object, not list"

/-- What a command leaves beside the tree: its exit code or failure, what it has written, and
the server it has started. -/
structure Outcome where
  result : Except Failure Nat
  stdout : String := ""
  stderr : String := ""
  served? : Option Server := none

namespace Outcome

def errorLine (message : String) : String := Colour.red.paint "Error:" ++ s!" {message}\n"

/-- An error that is reported. -/
def refused (message : String) : Outcome := { result := .ok 1, stderr := errorLine message }

def failed (f : Failure) : Outcome := { result := .error f }

def noSourceFile (source : Path) : Outcome :=
  refused s!"source file '{source.text}' does not exist."

def ofPageFault (stdout : String) : PageFault → Outcome
  | .file f => { failed (.file f) with stdout }
  | .missingPiece m => { failed (.missingPiece m) with stdout }

def ofSettingsFault : SettingsFault → Outcome
  | .file f => failed (.file f)
  | .scalar f => failed (.scalar f)
  | f => refused f.message

def ofBuildFault : BuildFault → Outcome
  | .file f => failed (.file f)
  | .compile (.missingPiece m) => failed (.missingPiece m)
  | f => refused f.message

end Outcome

/-! ## Build -/

/-- The settings for a source: those of the file that is named, or else those found beside it. -/
def settingsFor (t : FileTree) (source : Path) (config? : Option String) :
    Except SettingsFault Settings :=
  match config? with
  | some config => Settings.load t (.ofText config)
  | none => Settings.find t source.parent

/-- Where a document goes. An empty output counts as none. -/
def outputFor (t : FileTree) (source : Path) (settings : Settings) (output? : Option String) :
    Except Failure Path :=
  match output?.filter (!·.isEmpty) with
  | some output => (t.resolve (.ofText output)).mapError .file
  | none => (defaultOutput source settings).mapError .suffix

def wroteLine (count : Nat) (output : Path) : String :=
  Colour.green.paint s!"Wrote {count} flowchart line(s) to '{output.text}'." ++ "\n"

/-- Builds the document of a source that is there. -/
def buildSource (t : FileTree) (source : Path) (output? config? : Option String)
    (noFence : Bool) : Outcome × FileTree :=
  match settingsFor t source config? with
  | .error f => (.ofSettingsFault f, t)
  | .ok settings =>
    match outputFor t source settings output? with
    | .error f => (.failed f, t)
    | .ok output =>
      match transpileFile t source output (settings.fenced && !noFence) with
      | (.error f, t) => (.ofBuildFault f, t)
      | (.ok ls, t) => ({ result := .ok 0, stdout := wroteLine ls.length output }, t)

def build (t : FileTree) (source : String) (output? : Option String) (config : SettingsChoice)
    (noFence : Bool) : Outcome × FileTree :=
  match t.resolve (.ofText source) with
  | .error f => (.failed (.file f), t)
  | .ok p =>
    match t.isFile p with
    | .error f => (.failed (.file f), t)
    | .ok false => (.noSourceFile p, t)
    | .ok true =>
      match config with
      | .beside => buildSource t p output? none noFence
      | .file path => buildSource t p output? (some path) noFence
      | .nothing => (.failed .noSettingsPath, t)

/-! ## Check -/

def warningLine (w : Warning) : String := Colour.yellow.paint "Warning:" ++ s!" {w.message}\n"

/-- The line that sums up a check. -/
def checkedLine (statements warnings : Nat) : String :=
  if warnings = 0 then
    Colour.green.paint s!"Checked {statements} statement(s). No issues found." ++ "\n"
  else s!"Checked {statements} statement(s). {warnings} warning(s).\n"

def checkStatements (ss : List Statement) : Outcome :=
  match review ss with
  | .error f => .failed (.review f)
  | .ok ws =>
    { result := .ok 0
      stdout := String.join (ws.map warningLine) ++ checkedLine ss.length ws.length }

def check (t : FileTree) (source : String) : Outcome :=
  match t.resolve (.ofText source) with
  | .error f => .failed (.file f)
  | .ok p =>
    match readSource t p with
    | .error (.os e path) =>
      .refused (s!"cannot read source file '{p.text}': " ++ (FileFault.os e path).message)
    | .error f => .failed (.file f)
    | .ok ls =>
      match parseLines ls with
      | .error d => .refused d.message
      | .ok ss => checkStatements ss

/-! ## Serve -/

/-- The line that tells the address. A host or a port given as nothing is an empty list. -/
def servingLine (source : Path) (host? : Option String) (port? : Option Int) : String :=
  let host := host?.getD "[]"
  let port := port?.elim "[]" toString
  let name := Text.printed source.name
  s!"Serving preview of '{name}' at http://{host}:{port}/\n"

def serve (t : FileTree) (source : String) (host? : Option String) (port? : Option Int) :
    Outcome :=
  match t.resolve (.ofText source) with
  | .error f => .failed (.file f)
  | .ok p =>
    match t.isFile p with
    | .error f => .failed (.file f)
    | .ok false => .noSourceFile p
    | .ok true =>
      let stdout := servingLine p host? port?
      match page t p with
      | .error f => .ofPageFault stdout f
      | .ok layout => { result := .ok 0, stdout, served? := some ⟨host?, port?, layout⟩ }

/-! ## Any command -/

def dispatch (t : FileTree) : Invocation → Outcome × FileTree
  | .build source output? config noFence => build t source output? config noFence
  | .check source => (check t source, t)
  | .serve source host? port? => (serve t source host? port?, t)
  | .idle => ({ result := .ok 0 }, t)

/-- Runs the program on its arguments. -/
def run (t : FileTree) (arguments : List String) : Outcome × FileTree :=
  match readArguments arguments with
  | .help n => ({ result := .ok 0, stdout := help n }, t)
  | .misuse n f => ({ result := .ok 2, stderr := misuse n f }, t)
  | .run i => dispatch t i

end Flowchart.Command

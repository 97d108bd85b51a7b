import Flowchart.FileTree.Basic
import Flowchart.Settings
import Flowchart.Yaml.Load

/-!
# Settings files

Settings are kept in a YAML file next to the diagrams. A file that cannot be
read, is no YAML, or does not fit the schema is reported with its path; a
directory without such a file has the default settings.
-/

namespace Flowchart

/-- Why settings cannot be loaded. The last two are not reported as faults of the file: a path
or an encoding that stops the reading itself, and a scalar that cannot have the value its form
promises. -/
inductive SettingsFault where
  | notFound (path : String)
  | unreadable (path : String) (fault : FileFault)
  | malformed (path : String)
  | notMapping (path : String)
  | invalid (path : String) (faults : List Schema.Fault)
  | file (fault : FileFault)
  | scalar (fault : Yaml.Fault)
  deriving DecidableEq, Repr

namespace SettingsFault

def message : SettingsFault → String
  | notFound path => s!"Config file not found: {path}"
  | unreadable path fault => s!"Cannot read config file '{path}': {fault.message}"
  | malformed path => s!"Invalid YAML in config file '{path}'"
  | notMapping path => s!"{path}: config must be a YAML mapping"
  | invalid path faults =>
    s!"Invalid config file '{path}': {Schema.heading Settings.model faults}"
  | file fault => fault.message
  | scalar fault => fault.message

/-- Whether the fault is reported as one of the settings file. -/
def isReported : SettingsFault → Bool
  | file _ | scalar _ => false
  | _ => true

end SettingsFault

namespace Settings

/-- The name of a settings file. -/
def fileName : String := ".flowml.yaml"

/-- Settings in a text; `path` is named in faults. An empty document gives the defaults. -/
def ofText (path : String) (cs : List Char) : Except SettingsFault Settings :=
  match Yaml.load cs with
  | .error .malformed => .error (.malformed path)
  | .error f => .error (.scalar f)
  | .ok .null => .ok {}
  | .ok (.map entries) => (ofEntries entries).mapError (.invalid path)
  | .ok _ => .error (.notMapping path)

/-- Loads a settings file. -/
def load (t : FileTree) (p : Path) : Except SettingsFault Settings :=
  match t.readText p with
  | .ok cs => ofText p.text cs
  | .error (.os .notFound _) => .error (.notFound p.text)
  | .error (.os e path) => .error (.unreadable p.text (.os e path))
  | .error f => .error (.file f)

/-- The settings for the diagrams in a directory. -/
def find (t : FileTree) (directory : Path) : Except SettingsFault Settings :=
  let p := directory.join (.ofText fileName)
  match t.isThere p with
  | .error f => .error (.file f)
  | .ok false => .ok {}
  | .ok true => load t p

end Settings

end Flowchart

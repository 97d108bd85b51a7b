import Flowchart.Schema.Coerce

/-!
# Project settings

The settings of a directory of diagrams: the suffix of the documents, the
directory that receives them, and whether they are fenced. A key may be
spelled with a hyphen or with an underscore; no other key is permitted.
-/

namespace Flowchart

structure Settings where
  suffix : RawText := ".md"
  directory? : Option RawText := none
  fenced : Bool := true
  deriving DecidableEq, Repr

namespace Settings

open Schema

/-- The name of the schema in headings. -/
def model : String := "ProjectConfig"

/-- A suffix starts with a dot, is longer than it, and holds no path separator. -/
def isSuffix : RawText → Bool
  | .char '.' :: p :: ps => !(p :: ps).contains (.char '/') && !(p :: ps).contains (.char '\\')
  | _ => false

def checkSuffix (v : Value) : Except Problem RawText :=
  match asText v with
  | .error p => .error p
  | .ok s => if isSuffix s then .ok s else .error (.badSuffix (Text.quotedCodePoints s))

def checkDirectory (v : Value) : Except Problem (Option RawText) :=
  match v with
  | .null => .ok none
  | v => (asText v).map some

/-- The spelling under which a field is given; the first one wins when both are there. -/
def spelling? (entries : List (Value × Value)) (spellings : List RawText) : Option RawText :=
  spellings.find? fun s => (lookup? entries s).isSome

/-- A field with a default. -/
def field {α : Type} (entries : List (Value × Value)) (spellings : List RawText) (default : α)
    (check : Value → Except Problem α) : Checked α :=
  match spelling? entries spellings with
  | none => .ok default
  | some s =>
    match lookup? entries s with
    | none => .ok default
    | some v => within (.key s) (here (check v))

def suffixSpellings : List RawText := ["output-suffix", "output_suffix"]

def directorySpellings : List RawText := ["output-directory", "output_directory"]

def fencedSpellings : List RawText := ["fenced"]

/-- The keys that give a field. -/
def usedKeys (entries : List (Value × Value)) : List RawText :=
  [suffixSpellings, directorySpellings, fencedSpellings].filterMap (spelling? entries)

/-- Checks the fields and the keys beside them. -/
def checkEntries (entries : List (Value × Value)) : Checked Settings :=
  let suffix := field entries suffixSpellings (".md" : RawText) checkSuffix
  let directory := field entries directorySpellings none checkDirectory
  let fenced := field entries fencedSpellings true asBool
  let stray := keyFaults (usedKeys entries).contains entries
  match suffix, directory, fenced, stray with
  | .ok s, .ok d, .ok f, [] => .ok ⟨s, d, f⟩
  | _, _, _, _ => .error (faults suffix ++ faults directory ++ faults fenced ++ stray)

/-- Settings given as entries. -/
def ofEntries (entries : List (Value × Value)) : Checked Settings :=
  withKeys entries (checkEntries entries)

/-- Settings given as data. -/
def ofValue : Value → Checked Settings
  | .map entries => ofEntries entries
  | _ => .error [⟨[], .notModel model⟩]

end Settings

end Flowchart

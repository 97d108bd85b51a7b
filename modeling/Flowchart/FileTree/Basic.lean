import Flowchart.Path
import Flowchart.Text.Lines
import Flowchart.Text.Utf8

/-!
# File trees

A file tree is a value: directories, files and symbolic links under absolute
locations, and a working directory. A location is found by walking along a
path and following the links on the way; no more than forty links are followed,
and a name has at most 255 bytes. The system is asked only about paths that can
be encoded, so a path with a surrogate is refused before; names of single bytes
that are no text are left out.
-/

namespace Flowchart

/-- The names on the way from the root of a tree to a place in it. -/
abbrev Location := List RawText

inductive Entry where
  | directory
  | file (bytes : List UInt8)
  | link (target : String)
  deriving DecidableEq, Repr

/-- The ways in which the system refuses an operation. -/
inductive OsError where
  | notFound
  | occupied
  | notDirectory
  | isDirectory
  | nameTooLong
  | tooManyLinks
  deriving DecidableEq, Repr

namespace OsError

def number : OsError → Nat
  | notFound => 2
  | occupied => 17
  | notDirectory => 20
  | isDirectory => 21
  | nameTooLong => 36
  | tooManyLinks => 40

def text : OsError → String
  | notFound => "No such file or directory"
  | occupied => "File exists"
  | notDirectory => "Not a directory"
  | isDirectory => "Is a directory"
  | nameTooLong => "File name too long"
  | tooManyLinks => "Too many levels of symbolic links"

end OsError

/-- Why an operation on a file tree fails. Only `os` is a refusal of the system. -/
inductive FileFault where
  | os (error : OsError) (path : String)
  | nullByte
  | notEncodable (path : RawText)
  | linkLoop (path : String)
  | notText (f : Text.Utf8Fault)
  deriving DecidableEq, Repr

def FileFault.message : FileFault → String
  | os error path => s!"[Errno {error.number}] {error.text}: " ++ Text.quoted path
  | nullByte => "embedded null byte"
  | notEncodable path => Text.encodingProblem path
  | linkLoop path => "Symlink loop from " ++ Text.quoted path
  | notText f => f.message

structure FileTree where
  entries : List (Location × Entry)
  cwd : Location
  deriving DecidableEq, Repr

namespace FileTree

/-- The entry at a location. The root is always a directory. -/
def find? (t : FileTree) (l : Location) : Option Entry :=
  if l.isEmpty then some .directory else t.entries.lookup l

def isDirectoryAt (t : FileTree) (l : Location) : Bool := t.find? l == some .directory

/-- Puts an entry at a location, in place of the one that is there. -/
def insert (t : FileTree) (l : Location) (e : Entry) : FileTree :=
  if (t.entries.lookup l).isSome then
    { t with entries := t.entries.map fun x => if x.1 = l then (l, e) else x }
  else { t with entries := t.entries ++ [(l, e)] }

def erase (t : FileTree) (l : Location) : FileTree :=
  { t with entries := t.entries.filter (·.1 ≠ l) }

/-- Where a path leads. -/
inductive Found where
  | entry (l : Location) (e : Entry)
  /-- Nothing stands at the location, but its directory does. -/
  | absent (l : Location)
  deriving DecidableEq, Repr

def maxLinks : Nat := 40

def maxName : Nat := 255

def maxPath : Nat := 4096

def startsAtRoot (s : String) : Bool := s.toList.head? == some '/'

/-- All pieces between the slashes of a path as it is written. Empty ones count: a slash at the
end asks for a directory. -/
def writtenPieces (s : String) : List RawText := (s.toList.splitOn '/').map Text.codePoints

/-- The number of bytes of a name. -/
def nameSize (name : RawText) : Nat := (Text.printed name).utf8ByteSize

/-- What a walk is for: the entry itself, what it leads to if it is a link, or a file that may
have to be created there. -/
inductive Purpose where
  | itself
  | target
  | creation
  deriving DecidableEq, Repr

/-- Walks along names from a location up to a link, from where `onLink` goes on with the names of
its target. No file is created behind a slash at the end. -/
def walkAlong (t : FileTree) (purpose : Purpose)
    (onLink : Location → List RawText → Except OsError Found) (here : Location) :
    List RawText → Except OsError Found
  | [] =>
    match t.find? here with
    | some e => .ok (.entry here e)
    | none => .error .notFound
  | name :: rest =>
    if !t.isDirectoryAt here then .error .notDirectory
    else if name = [] || name = "." then t.walkAlong purpose onLink here rest
    else if name = ".." then t.walkAlong purpose onLink here.dropLast rest
    else if purpose = .creation && !rest.isEmpty && rest.all (· == []) then .error .isDirectory
    else if maxName < nameSize name then .error .nameTooLong
    else
      match t.find? (here ++ [name]) with
      | none => if rest.isEmpty then .ok (.absent (here ++ [name])) else .error .notFound
      | some (.link target) =>
        if rest.isEmpty && purpose = .itself then .ok (.entry (here ++ [name]) (.link target))
        else onLink (if startsAtRoot target then [] else here) (writtenPieces target ++ rest)
      | some _ => t.walkAlong purpose onLink (here ++ [name]) rest

/-- Walks along names from a location and follows no more than a number of links. -/
def walk (t : FileTree) (purpose : Purpose) : Nat → Location → List RawText → Except OsError Found
  | 0 => t.walkAlong purpose fun _ _ => .error .tooManyLinks
  | links + 1 => t.walkAlong purpose (t.walk purpose links)

/-- Where a path starts in the tree. -/
def base (t : FileTree) (p : Path) : Location := if p.isAbsolute then [] else t.cwd

/-- Finds where a path leads. -/
def locate (t : FileTree) (purpose : Purpose) (p : Path) : Except FileFault Found :=
  if Text.hasSurrogate p.raw then .error (.notEncodable p.raw)
  else if p.text.toList.contains '\x00' then .error .nullByte
  else if maxPath ≤ p.text.utf8ByteSize then .error (.os .nameTooLong p.text)
  else (t.walk purpose maxLinks (t.base p) p.parts).mapError (.os · p.text)

/-! ## Questions -/

/-- The entry that a path leads to. A path that leads nowhere is no fault here, nor is one that
the system could not even be asked about; a name that is too long is. -/
def entry? (t : FileTree) (p : Path) : Except FileFault (Option Entry) :=
  match t.locate .target p with
  | .ok (.entry _ e) => .ok (some e)
  | .ok (.absent _) => .ok none
  | .error (.os .nameTooLong path) => .error (.os .nameTooLong path)
  | .error _ => .ok none

def isThere (t : FileTree) (p : Path) : Except FileFault Bool := (t.entry? p).map (·.isSome)

def isFile (t : FileTree) (p : Path) : Except FileFault Bool :=
  (t.entry? p).map fun
    | some (.file _) => true
    | _ => false

def isDirectory (t : FileTree) (p : Path) : Except FileFault Bool :=
  (t.entry? p).map (· == some .directory)

/-! ## Files -/

def readFile (t : FileTree) (p : Path) : Except FileFault (List UInt8) := do
  match ← t.locate .target p with
  | .entry _ (.file bytes) => return bytes
  | .entry _ _ => .error (.os .isDirectory p.text)
  | .absent _ => .error (.os .notFound p.text)

/-- The text of a file, with its line ends unified. -/
def readText (t : FileTree) (p : Path) : Except FileFault (List Char) := do
  match Text.decodeUtf8 (← t.readFile p) with
  | .ok cs => return Text.unifyNewlines cs
  | .error f => .error (.notText f)

/-- Writes a file, new or in place of the content that is there. -/
def writeFile (t : FileTree) (p : Path) (bytes : List UInt8) : Except FileFault FileTree := do
  match ← t.locate .creation p with
  | .entry l (.file _) | .absent l => return t.insert l (.file bytes)
  | .entry _ _ => .error (.os .isDirectory p.text)

/-- Removes the last of the names on a way. A slash behind it asks for a directory, and a
directory is never removed. -/
def removeAlong (t : FileTree) (start : Location) (pieces : List RawText) :
    Except OsError FileTree := do
  match pieces.reverse.dropWhile (· == []) with
  | [] => .error .isDirectory
  | name :: before =>
    match ← t.walk .target maxLinks start before.reverse with
    | .absent _ => .error .notFound
    | .entry l .directory =>
      if name = "." || name = ".." then .error .isDirectory
      else if maxName < nameSize name then .error .nameTooLong
      else
        match t.find? (l ++ [name]) with
        | none => .error .notFound
        | some .directory => .error .isDirectory
        | some _ =>
          if pieces.getLast? = some [] then .error .notDirectory else .ok (t.erase (l ++ [name]))
    | .entry _ _ => .error .notDirectory

/-- Removes a file or a link. The path is taken as it is written. -/
def removeFile (t : FileTree) (path : String) : Except FileFault FileTree :=
  if path.toList.contains '\x00' then .error .nullByte
  else if path.isEmpty then .error (.os .notFound path)
  else if maxPath ≤ path.utf8ByteSize then .error (.os .nameTooLong path)
  else
    (t.removeAlong (if startsAtRoot path then [] else t.cwd) (writtenPieces path)).mapError
      (.os · path)

/-- Creates a link. -/
def createLink (t : FileTree) (p : Path) (target : String) : Except FileFault FileTree := do
  match ← t.locate .itself p with
  | .entry _ _ => .error (.os .occupied p.text)
  | .absent l => return t.insert l (.link target)

/-! ## Directories -/

def makeDirectory (t : FileTree) (p : Path) : Except FileFault FileTree := do
  match ← t.locate .itself p with
  | .entry _ _ => .error (.os .occupied p.text)
  | .absent l => return t.insert l .directory

/-- Makes a directory that may be there already. -/
def ensureDirectory (t : FileTree) (p : Path) : Except FileFault FileTree :=
  match t.makeDirectory p with
  | .ok t => .ok t
  | .error (.os .notFound path) => .error (.os .notFound path)
  | .error (.os e path) => do if ← t.isDirectory p then .ok t else .error (.os e path)
  | .error f => .error f

/-- Makes a directory and the missing ones above it. Directories made before a fault stay. Any
number of them may be missing: a stack that overflows is left out. -/
def ensureDirectories (t : FileTree) (p : Path) : Except FileFault Unit × FileTree :=
  match t.ensureDirectory p with
  | .ok t => (.ok (), t)
  | .error (.os .notFound path) =>
    if p.parts.isEmpty then (.error (.os .notFound path), t)
    else
      match ensureDirectories t p.parent with
      | (.error f, t) => (.error f, t)
      | (.ok (), t) =>
        match t.ensureDirectory p with
        | .ok t => (.ok (), t)
        | .error f => (.error f, t)
  | .error f => (.error f, t)
termination_by p.parts.length
decreasing_by
  simp only [Path.parent, List.length_dropLast]
  rename_i h
  cases hp : p.parts with
  | nil => simp [hp] at h
  | cons _ _ => simp

end FileTree

end Flowchart

import Flowchart.Text.CodePoint

/-!
# Paths

A path is a root and parts. Repeated and trailing slashes and `.` parts carry
no meaning and are not kept; `..` parts are, since a link may stand before
them. Exactly two slashes in front are a root of their own. The parts may be
any texts, also such as no system takes for a name.
-/

namespace Flowchart

open Text

/-- Where a path starts. -/
inductive PathRoot where
  | relative
  | single
  | double
  deriving DecidableEq, Repr

structure Path where
  root : PathRoot
  parts : List RawText
  deriving DecidableEq, Repr

/-- Why a path gets no other suffix. -/
inductive SuffixFault where
  | badSuffix (suffix : RawText)
  | noName (path : String)
  deriving DecidableEq, Repr

def SuffixFault.message : SuffixFault → String
  | badSuffix suffix => "Invalid suffix " ++ quotedCodePoints suffix
  | noName path => s!"PosixPath('{path}') has an empty name"

/-- The pieces between slashes that carry meaning. -/
def pathParts (s : RawText) : List RawText :=
  (s.splitOn (.char '/')).filter fun p => p != [] && p != [.char '.']

namespace Path

def rootOf (s : RawText) : PathRoot :=
  match (s.takeWhile (· == .char '/')).length with
  | 0 => .relative
  | 2 => .double
  | _ => .single

def ofText (s : RawText) : Path := ⟨rootOf s, pathParts s⟩

def rootText : PathRoot → RawText
  | .relative => []
  | .single => [.char '/']
  | .double => [.char '/', .char '/']

/-- The text of a path; the empty path is a dot. -/
def raw (p : Path) : RawText :=
  if p.root = .relative && p.parts.isEmpty then [.char '.']
  else rootText p.root ++ [CodePoint.char '/'].intercalate p.parts

/-- The text of a path as it is printed. -/
def text (p : Path) : String := printed p.raw

def isAbsolute (p : Path) : Bool := p.root != .relative

/-- The last part, and nothing for a path without parts. -/
def name (p : Path) : RawText := p.parts.getLastD []

def parent (p : Path) : Path := { p with parts := p.parts.dropLast }

/-- A path seen from another one; an absolute path stands for itself. -/
def join (p q : Path) : Path := if q.isAbsolute then q else { p with parts := p.parts ++ q.parts }

/-- The part of a name from its last dot on, unless the dot is its first or its last character. -/
def suffixOf (name : RawText) : RawText :=
  let tail := (name.reverse.takeWhile (· != .char '.')).reverse
  if tail.isEmpty || name.length ≤ tail.length + 1 then [] else .char '.' :: tail

def suffix (p : Path) : RawText := suffixOf p.name

/-- The name without its suffix. -/
def stem (p : Path) : RawText := p.name.take (p.name.length - (suffixOf p.name).length)

/-- Whether a text can stand for a suffix: it holds no slash, and it is empty or a dot with more
behind it. -/
def allowsSuffix (s : RawText) : Bool :=
  !s.contains (.char '/') && (s.isEmpty || (s.head? == some (.char '.') && s != [.char '.']))

/-- The path with another suffix. -/
def withSuffix (p : Path) (suffix : RawText) : Except SuffixFault Path :=
  if !allowsSuffix suffix then .error (.badSuffix suffix)
  else if p.name.isEmpty then .error (.noName p.text)
  else .ok { p with parts := p.parts.dropLast ++ [p.stem ++ suffix] }

end Path

end Flowchart

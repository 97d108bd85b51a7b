import Flowchart.FileTree.Basic

/-!
# Resolving paths

Resolving a path gives the absolute path that it leads to: links are followed,
`..` goes up, and parts that do not exist are kept as they are. A link that
leads back to itself cannot be resolved. There is no bound on the number of
links inside links: a stack that overflows is left out.
-/

namespace Flowchart.FileTree

/-- The absolute path of a location. -/
def pathAt (l : Location) : Path := ⟨.single, l⟩

/-- A place reached in resolving. The way to it is written from the root, or else from the
working directory after a number of steps up; a link counts as met again only where its way is
written alike. -/
structure Spot where
  above? : Option Nat
  location : Location
  deriving DecidableEq, Repr

namespace Spot

/-- The place below a place. -/
def down (s : Spot) (name : RawText) : Spot := { s with location := s.location ++ [name] }

/-- The place above a place; nothing is above the root. A step up is written only where the way
has no name left to take away. -/
def up (cwd : Location) (s : Spot) : Spot :=
  match s.above? with
  | some n =>
    if s.location.length = cwd.length - n then ⟨some (n + 1), s.location.dropLast⟩
    else ⟨some n, s.location.dropLast⟩
  | none => ⟨none, s.location.dropLast⟩

/-- The way to a place as it is written. -/
def way (cwd : Location) (s : Spot) : Path :=
  match s.above? with
  | some n => ⟨.relative, List.replicate n (".." : RawText) ++ s.location.drop (cwd.length - n)⟩
  | none => pathAt s.location

end Spot

/-- A path without `..`, taken away together with the name before it. -/
def lexical (p : Path) : Path :=
  let add (kept : List RawText) (part : RawText) : List RawText :=
    if part = ".." then kept.dropLast else kept ++ [part]
  { p with parts := p.parts.foldl add [] }

/-- What is left to do once a link is resolved: the pieces behind the link. -/
structure Pending where
  link : Spot
  pieces : List RawText
  deriving DecidableEq, Repr

/-- A path with pieces behind it. Pieces that start with a slash stand for themselves. -/
def keep (p : Path) (pieces : List RawText) : Path :=
  p.join (.ofText ([Text.CodePoint.char '/'].intercalate pieces))

/-- The path that is left where no more links are followed, without `..`. -/
def leave (p : Path) (pieces : List RawText) (pending : List Pending) : Path :=
  lexical (pending.foldl (fun p later => keep p later.pieces) (keep p pieces))

/-- Whether the way to a spot is short enough for the system to look the spot up. -/
def canLookUp (t : FileTree) (s : Spot) : Bool := decide ((s.way t.cwd).text.utf8ByteSize < maxPath)

/-- The target of the link at a spot. A link that cannot be looked up is taken for a name. -/
def linkAt? (t : FileTree) (s : Spot) : Option String :=
  match t.find? s.location with
  | some (.link target) => if t.canLookUp s then some target else none
  | _ => none

/-- Follows pieces from a spot. `seen` holds the links met so far, each with the spot that it
leads to once that is known. A link met again before that is a loop: what is left is then kept
as it is. Each link is followed once for each way it is written, so that `fuel` can be
bounded. -/
def follow (t : FileTree) : Nat → List (Spot × Option Spot) → Spot → List RawText →
    List Pending → Except FileFault Path
  | 0, _, here, pieces, pending =>
    .ok (leave (pathAt here.location) pieces pending)
  | _, _, here, [], [] => .ok (pathAt here.location)
  | fuel + 1, seen, here, [], later :: pending =>
    t.follow fuel ((later.link, some here) :: seen) here later.pieces pending
  | fuel + 1, seen, here, name :: pieces, pending =>
    if name = [] || name = "." then t.follow fuel seen here pieces pending
    else if name = ".." then t.follow fuel seen (here.up t.cwd) pieces pending
    else if Text.hasSurrogate name then .error (.notEncodable ((here.down name).way t.cwd).raw)
    else if name.contains (.char '\x00') then .error .nullByte
    else
      let next := here.down name
      match t.linkAt? next with
      | some target =>
        match seen.lookup next with
        | some (some there) => t.follow fuel seen there pieces pending
        | some none => .ok (leave (pathAt next.location) pieces pending)
        | none =>
          t.follow fuel ((next, none) :: seen) (if startsAtRoot target then ⟨none, []⟩ else here)
            (writtenPieces target) (⟨next, pieces⟩ :: pending)
      | none => t.follow fuel seen next pieces pending

/-- The number of steps that following a link takes. -/
def entrySteps : Entry → Nat
  | .link target => (writtenPieces target).length + 1
  | _ => 0

/-- The number of steps that following all links of a tree once takes. -/
def linkSteps (t : FileTree) : Nat := t.entries.foldl (fun n x => n + entrySteps x.2) 0

/-- A link can be looked up under less than `maxPath` ways from the working directory and one from
the root. -/
def maxSteps (t : FileTree) (p : Path) : Nat :=
  p.parts.length + t.linkSteps * (maxPath + 1) + 1

/-- Where resolving a path starts. -/
def start (t : FileTree) (p : Path) : Spot := if p.isAbsolute then ⟨none, []⟩ else ⟨some 0, t.cwd⟩

/-- The absolute path that a path leads to. -/
def resolve (t : FileTree) (p : Path) : Except FileFault Path := do
  let q ← t.follow (t.maxSteps p) [] (t.start p) p.parts []
  match t.locate .target q with
  | .error (.os .tooManyLinks path) => .error (.linkLoop path)
  | .error (.os _ _) | .ok _ => return q
  | .error f => .error f

end Flowchart.FileTree

import Flowchart.Command.Run

/-!
# The program

The commands work on a file tree. The program takes the part of the disk that
its arguments name into such a tree, runs the command on it, and writes back
what has changed.
-/

namespace Flowchart.Program

open Command

/-- The path without links, if something is there. -/
def realPath? (text : String) : IO (Option String) := do
  try
    return some (← IO.FS.realPath text).toString
  catch _ => return none

/-- The entry at a path without links. -/
def entryAt (text : String) : IO Entry := do
  if ← (← IO.FS.realPath text).isDir then return .directory
  return .file (← IO.FS.readBinFile text).toList

/-- The locations on the way to a location, and the location itself. -/
def wayTo (l : Location) : List Location := (List.range l.length).map fun i => l.take (i + 1)

def makeWay (t : FileTree) (l : Location) : FileTree :=
  (wayTo l).foldl (fun t l => t.insert l .directory) t

/-- Takes what stands along names into a tree, from a location without links. -/
def takeAlong (t : FileTree) (here : Location) : List RawText → IO FileTree
  | [] => return t
  | name :: names => do
    if name = ".." then takeAlong t here.dropLast names
    else
      let l := here ++ [name]
      match ← realPath? (FileTree.pathAt l).text with
      | none => return t
      | some real =>
        let entry ← entryAt real
        let there := pathParts real
        let t := if there = l then t else t.insert l (.link real)
        takeAlong ((makeWay t there.dropLast).insert there entry) there names

def takePath (t : FileTree) (p : Path) : IO FileTree := takeAlong t (t.base p) p.parts

/-- The part of the disk that a build looks at. -/
def takeForBuild (t : FileTree) (source : String) (output? config? : Option String) :
    IO FileTree := do
  let .ok source := t.resolve (.ofText source) | return t
  let t ← takePath t (source.parent.join (.ofText Settings.fileName))
  let t ← (config?.map Path.ofText).elim (pure t) (takePath t)
  let .ok settings := settingsFor t source config? | return t
  let .ok output := outputFor t source settings output? | return t
  takePath t output

/-- The part of the disk that a command looks at. -/
def takeFor (cwd : Location) : Invocation → IO FileTree
  | .build source output? config _ => do
    let t ← takeSource source
    let t ← (output?.map Path.ofText).elim (pure t) (takePath t)
    match config with
    | .beside => takeForBuild t source output? none
    | .file path => takeForBuild t source output? (some path)
    | .nothing => return t
  | .check source | .serve source _ _ => takeSource source
  | .idle => return start
where
  start : FileTree := makeWay ⟨[], cwd⟩ cwd
  takeSource (source : String) : IO FileTree := takePath start (.ofText source)

/-- Writes an entry to the disk. -/
def putEntry (l : Location) (e : Entry) : IO Unit := do
  let text := (FileTree.pathAt l).text
  match e with
  | .directory => IO.FS.createDirAll text
  | .file bytes => IO.FS.writeBinFile text ⟨bytes.toArray⟩
  | .link _ => return ()

/-- Writes the entries that are new or changed. -/
def putChanges (before after : FileTree) : IO Unit := do
  for (l, e) in after.entries do
    if before.find? l != some e then putEntry l e

/-- Prints an outcome and returns the exit code. -/
def conclude (o : Outcome) : IO UInt32 := do
  IO.print o.stdout
  IO.eprint o.stderr
  match o.result with
  | .ok n => return n.toUInt32
  | .error f =>
    IO.eprintln f.message
    return 1

end Flowchart.Program

open Flowchart in
def main (arguments : List String) : IO UInt32 := do
  let cwd := pathParts (← IO.currentDir).toString
  let before ← match Command.readArguments arguments with
    | .run i => Program.takeFor cwd i
    | _ => pure ⟨[], cwd⟩
  let (outcome, after) := Command.run before arguments
  Program.putChanges before after
  Program.conclude outcome

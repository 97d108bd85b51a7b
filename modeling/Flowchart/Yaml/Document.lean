import Flowchart.Yaml.Node
import Flowchart.Yaml.Stream

/-!
# Reading a document

Nodes are read from a stream of tokens, which goes no further through the text
than the nodes need. A text holds at most one document.
-/

namespace Flowchart.Yaml

open Flowchart.Text

/-- The tag handles of a document and their expansions. -/
abbrev Handles := List (String × String)

/-- The handles that every document has. -/
def defaultHandles : Handles := [("!", "!"), ("!!", standardNamespace)]

/-- A document that is being read: the text that is left, the nodes so far, their names, and the
number of collections that are open. -/
structure Draft where
  stream : Stream
  graph : Graph := {}
  anchors : List (String × Nat) := []
  handles : Handles := defaultHandles
  depth : Nat := 0
  deriving DecidableEq, Repr

/-- A step in the reading of a document. -/
abbrev Reading := StateT Draft (Except Fault)

namespace Reading

def refuse {α : Type} : Reading α := throw .malformed

/-- The next token; there is none at the end of the text. -/
def next? : Reading (Option Token) := do
  let d ← get
  let stream ← d.stream.settle
  set { d with stream }
  return stream.tokens.head?

/-- Takes the next token away. -/
def skip : Reading Unit := modify fun d => { d with stream := d.stream.take }

/-! ## Nodes -/

/-- Adds a node. A name may be given to one node only. -/
def addNode (anchor? : Option String) (n : Node) : Reading Nat := do
  let d ← get
  let id := d.graph.size
  let d := { d with graph := d.graph.push n }
  match anchor? with
  | none => set d
  | some name =>
    if (d.anchors.lookup name).isSome then refuse
    set { d with anchors := (name, id) :: d.anchors }
  return id

/-- The most collections that may be open at a time: with more of them the stack of a reader that
descends into them overflows. No other stack is bounded: that it overflows in closing brackets, in
merging, or in following keys `=` is left out. -/
def maxDepth : Nat := 490

/-- Adds a collection, which its parts may name already, and then its parts. -/
def addCollection (anchor? : Option String) (tag : Tag) (start : Content)
    (parts : Reading Content) : Reading Nat := do
  let id ← addNode anchor? ⟨tag, start⟩
  let depth := (← get).depth
  if maxDepth ≤ depth then throw .tooDeep
  modify fun d => { d with depth := depth + 1 }
  let content ← parts
  modify fun d => { d with depth, graph := d.graph.setContent id content }
  return id

def emptyNode : Reading Nat := addNode none .empty

/-- The node that a name stands for. -/
def named (name : String) : Reading Nat := do
  match (← get).anchors.lookup name with
  | some id => return id
  | none => refuse

/-! ## Properties -/

/-- The anchor and the tag before a node, in either order. -/
structure Properties where
  anchor? : Option String := none
  tag? : Option (Option String × String) := none

def anchorAfter (tag? : Option (Option String × String)) : Reading Properties := do
  match ← next? with
  | some (.anchor name) =>
    skip
    return ⟨some name, tag?⟩
  | _ => return ⟨none, tag?⟩

def tagAfter (anchor? : Option String) : Reading Properties := do
  match ← next? with
  | some (.tag handle? suffix) =>
    skip
    return ⟨anchor?, some (handle?, suffix)⟩
  | _ => return ⟨anchor?, none⟩

def properties : Reading Properties := do
  match ← next? with
  | some (.anchor name) =>
    skip
    tagAfter (some name)
  | some (.tag handle? suffix) =>
    skip
    anchorAfter (some (handle?, suffix))
  | _ => return {}

/-- The full text of a tag. -/
def expandTag : Option String × String → Reading String
  | (none, suffix) => return suffix
  | (some handle, suffix) => do
    match (← get).handles.lookup handle with
    | some expansion => return expansion ++ suffix
    | none => refuse

/-- The tag of a node, if one is given; the lone mark `!` gives none. -/
def givenTag? (p : Properties) : Reading (Option Tag) := do
  match p.tag? with
  | none => return none
  | some t =>
    let text ← expandTag t
    return if text == "!" then none else some (.ofText text)

/-- A scalar is resolved as a plain one also when only the lone mark `!` stands before it. -/
def scalarTag (given? : Option Tag) (resolved : Bool) (text : List CodePoint) : Tag :=
  match given? with
  | some t => t
  | none => if resolved then plainTag text else .str

/-- A node of which at most properties are written. -/
def propertiesOnly (p : Properties) (given? : Option Tag) : Reading Nat :=
  if p.anchor?.isSome || p.tag?.isSome then
    addNode p.anchor? ⟨scalarTag given? true [], .scalar []⟩
  else refuse

/-! ## Collections -/

/-- The comma between two entries of a flow collection. -/
def comma : Reading Unit := do
  match ← next? with
  | some .flowEntry => skip
  | _ => refuse

mutual

/-- Reads a node. Block collections are read only in block context, and a sequence that is not
indented only as a part of a block mapping. -/
def node (block indentless : Bool) : Nat → Reading Nat
  | 0 => refuse
  | fuel + 1 => do
    match ← next? with
    | some (.alias name) =>
      skip
      named name
    | _ =>
      let p ← properties
      let given? ← givenTag? p
      let sequence (items : Reading (List Nat)) : Reading Nat :=
        addCollection p.anchor? (given?.getD .seq) (.sequence []) (.sequence <$> items)
      let mapping (pairs : Reading (List (Nat × Nat))) : Reading Nat :=
        addCollection p.anchor? (given?.getD .map) (.mapping []) (.mapping <$> pairs)
      match ← next? with
      | some .blockEntry =>
        if indentless then sequence (indentlessItems fuel) else propertiesOnly p given?
      | some (.scalar text plain) =>
        skip
        addNode p.anchor? ⟨scalarTag given? (plain || p.tag?.isSome) text, .scalar text⟩
      | some .flowSequenceStart => sequence (do skip; flowItems true fuel)
      | some .flowMappingStart => mapping (do skip; flowPairs true fuel)
      | some .blockSequenceStart =>
        if block then sequence (do skip; blockItems fuel) else propertiesOnly p given?
      | some .blockMappingStart =>
        if block then mapping (do skip; blockPairs fuel) else propertiesOnly p given?
      | _ => propertiesOnly p given?

/-- Reads a node unless one of the given tokens shows that none is written. -/
def nodeUnless (stops : List Token) (block indentless : Bool) : Nat → Reading Nat
  | 0 => refuse
  | fuel + 1 => do
    if (← next?).any stops.contains then emptyNode else node block indentless fuel

/-- Reads the value after a key, if a value mark is there. -/
def valueUnless (stops : List Token) (block indentless : Bool) : Nat → Reading Nat
  | 0 => refuse
  | fuel + 1 => do
    match ← next? with
    | some .value =>
      skip
      nodeUnless stops block indentless fuel
    | _ => emptyNode

/-- Reads the entries of a block sequence and its end. -/
def blockItems : Nat → Reading (List Nat)
  | 0 => refuse
  | fuel + 1 => do
    match ← next? with
    | some .blockEntry =>
      skip
      let item ← nodeUnless [.blockEntry, .blockEnd] true false fuel
      return item :: (← blockItems fuel)
    | some .blockEnd =>
      skip
      return []
    | _ => refuse

/-- Reads the entries of a sequence that is not indented. -/
def indentlessItems : Nat → Reading (List Nat)
  | 0 => refuse
  | fuel + 1 => do
    match ← next? with
    | some .blockEntry =>
      skip
      let item ← nodeUnless [.blockEntry, .key, .value, .blockEnd] true false fuel
      return item :: (← indentlessItems fuel)
    | _ => return []

/-- Reads the pairs of a block mapping and its end. A key without a value has an empty one. -/
def blockPairs : Nat → Reading (List (Nat × Nat))
  | 0 => refuse
  | fuel + 1 => do
    match ← next? with
    | some .key =>
      skip
      let key ← nodeUnless [.key, .value, .blockEnd] true true fuel
      let value ← valueUnless [.key, .value, .blockEnd] true true fuel
      return (key, value) :: (← blockPairs fuel)
    | some .blockEnd =>
      skip
      return []
    | _ => refuse

/-- Reads the entries of a flow sequence and its bracket. An entry that is a key makes a
mapping of one pair. -/
def flowItems (first : Bool) : Nat → Reading (List Nat)
  | 0 => refuse
  | fuel + 1 => do
    match ← next? with
    | some .flowSequenceEnd =>
      skip
      return []
    | _ =>
      if !first then comma
      match ← next? with
      | some .key =>
        let item ← addCollection none .map (.mapping []) do
          skip
          let key ← nodeUnless [.value, .flowEntry, .flowSequenceEnd] false false fuel
          let value ← valueUnless [.flowEntry, .flowSequenceEnd] false false fuel
          return .mapping [(key, value)]
        return item :: (← flowItems false fuel)
      | some .flowSequenceEnd =>
        skip
        return []
      | _ =>
        let item ← node false false fuel
        return item :: (← flowItems false fuel)

/-- Reads the pairs of a flow mapping and its brace. An entry without a key mark is a key
without a value. -/
def flowPairs (first : Bool) : Nat → Reading (List (Nat × Nat))
  | 0 => refuse
  | fuel + 1 => do
    match ← next? with
    | some .flowMappingEnd =>
      skip
      return []
    | _ =>
      if !first then comma
      match ← next? with
      | some .key =>
        skip
        let key ← nodeUnless [.value, .flowEntry, .flowMappingEnd] false false fuel
        let value ← valueUnless [.flowEntry, .flowMappingEnd] false false fuel
        return (key, value) :: (← flowPairs false fuel)
      | some .flowMappingEnd =>
        skip
        return []
      | _ =>
        let key ← node false false fuel
        let value ← emptyNode
        return (key, value) :: (← flowPairs false fuel)

end

/-! ## Documents -/

/-- Reads directives: one version at most, and no handle twice. -/
def directives (versioned : Bool) (handles : Handles) : Nat → Reading Handles
  | 0 => refuse
  | fuel + 1 => do
    match ← next? with
    | some (.directive d) =>
      skip
      match d with
      | .version major =>
        if versioned || major ≠ 1 then refuse else directives true handles fuel
      | .tag handle expansion =>
        if (handles.lookup handle).isSome then refuse
        else directives versioned ((handle, expansion) :: handles) fuel
      | .other => directives versioned handles fuel
    | _ => return handles

/-- Reads the directives and the start mark of a document. -/
def documentStart (fuel : Nat) : Reading Unit := do
  let handles ← directives false [] fuel
  match ← next? with
  | some .documentStart =>
    skip
    modify fun d => { d with handles := handles ++ defaultHandles }
  | _ => refuse

/-- Reads the end marks of a document. No other document may follow. -/
def documentEnd : Nat → Reading Unit
  | 0 => refuse
  | fuel + 1 => do
    match ← next? with
    | none => return
    | some .documentEnd =>
      skip
      documentEnd fuel
    | _ =>
      documentStart fuel
      refuse

/-- Reads what follows the start mark of a document. -/
def documentContent (fuel : Nat) : Reading Nat := do
  match ← next? with
  | none | some (.directive _) | some .documentStart | some .documentEnd => emptyNode
  | _ => node true false fuel

/-- Reads the document of a text, if it has one; the number of its outermost node. -/
def document? (fuel : Nat) : Reading (Option Nat) := do
  match ← next? with
  | none => return none
  | some (.directive _) | some .documentStart =>
    documentStart fuel
    let root ← documentContent fuel
    documentEnd fuel
    return some root
  | _ =>
    let root ← node true false fuel
    documentEnd fuel
    return some root

end Reading

/-- The nodes of the document in a text and the number of the outermost one, if there is a
document. A character stands behind at most four tokens, and a token behind at most four steps. -/
def readDocument (cs : List Char) : Except Fault (Option (Nat × Graph)) := do
  let (root?, d) ← Reading.document? (16 * cs.length + 16) { stream := .ofChars cs }
  return root?.map (·, d.graph)

end Flowchart.Yaml

import Flowchart.Yaml.Document
import Flowchart.Yaml.Literal
import Flowchart.Yaml.Merge

/-!
# Values of a YAML document

Scalars are given their values as soon as they are met. A collection is opened
first and filled later: first the outermost one, then the collections inside
it, level by level. The value of a document is its outermost collection; of the
collections inside it only the kind is kept, but all are filled, so that a
fault anywhere is found, and the one on the outermost level first.
-/

namespace Flowchart.Yaml

/-! ## Keys -/

/-- Seconds since the start of the calendar, for a time with an offset. -/
def instant (m : Moment) (offset : Int) : Int :=
  let y := m.date.year - 1
  let months := (List.range (m.date.month - 1)).foldl
    (fun days i => days + daysInMonth m.date.year (i + 1)) 0
  let days := 365 * y + y / 4 - y / 100 + y / 400 + months + m.date.day
  (((days * 24 + m.hour) * 60 + m.minute) * 60 + m.second : Nat) - offset

/-- The number that a value counts as, if it is a whole one. -/
def wholeKey? : Value → Option Int
  | .bool b => some (if b then 1 else 0)
  | .int n => some n
  | .float x => (Number.Exact.ofFloat x).toInt?
  | _ => none

/-- A key of a mapping. Not-a-number is the same key only where it has the same mark. -/
structure Key where
  value : Value
  mark : Nat

/-- Whether two keys of a mapping are the same. Numbers are the same when their values are. -/
def Key.same (a b : Key) : Bool :=
  match wholeKey? a.value, wholeKey? b.value with
  | some m, some n => m == n
  | none, none =>
    match a.value, b.value with
    | .null, .null => true
    | .str s, .str t => s == t
    | .bytes s, .bytes t => s == t
    | .float x, .float y => x == y || (x.isNaN && y.isNaN && a.mark == b.mark)
    | .date d, .date e => d == e
    | .moment m, .moment n =>
      match m.offset?, n.offset? with
      | none, none => m == n
      | some p, some q => instant m p == instant n q && m.microsecond == n.microsecond
      | _, _ => false
    | _, _ => false
  | _, _ => false

/-- Collections cannot be keys. -/
def isKey : Value → Bool
  | .list _ | .set _ | .map _ => false
  | _ => true

/-- Sets the value of a key. A key that is there already keeps its place. -/
def insertEntry (k : Key) (v : Value) : List (Key × Value) → List (Key × Value)
  | [] => [(k, v)]
  | (k', v') :: rest =>
    if k'.same k then (k', v) :: rest else (k', v') :: insertEntry k v rest

/-! ## Values of nodes -/

namespace Graph

/-- The value of a node, and the node to fill later if it is a collection. -/
def construct (g : Graph) (n : Nat) : Except Fault (Value × List Nat) :=
  let scalar (read : List Text.CodePoint → Except Fault Value) : Except Fault (Value × List Nat) :=
    match g.text n with
    | .error f => .error f
    | .ok text => (read text).map (·, [])
  match g.tag n with
  | .null => scalar fun _ => .ok .null
  | .bool => scalar fun t => (boolOfText t).map .bool
  | .int => scalar fun t => (intOfText t).map .int
  | .float => scalar fun t => (floatOfText t).map .float
  | .str => scalar fun t => .ok (.str t)
  | .binary => scalar bytesOfText
  | .timestamp =>
    scalar fun t => if g.isMapping n then .error .timestampInMapping else timeOfText t
  | .seq | .omap | .pairs => .ok (.list [], [n])
  | .map => .ok (.map [], [n])
  | .set => .ok (.set [], [n])
  | .merge | .value | .other _ => .error .malformed

/-- The key that a node with a value is. All that are spelled with the word for not-a-number
have the same mark; any other not-a-number has the mark of its node. -/
def key (g : Graph) (n : Nat) : Value → Key
  | .float x =>
    match g.text n with
    | .ok text => ⟨.float x, if x.isNaN && (floatBody text).2 != nanWord then n + 1 else 0⟩
    | .error _ => ⟨.float x, 0⟩
  | v => ⟨v, 0⟩

/-- The values of nodes in order, and the nodes to fill later. -/
def constructAll (g : Graph) : List Nat → Except Fault (List Value × List Nat)
  | [] => .ok ([], [])
  | n :: ns => do
    let (v, later) ← g.construct n
    let (vs, more) ← g.constructAll ns
    return (v :: vs, later ++ more)

/-- The entries of a mapping, and the nodes to fill later. -/
def constructEntries (g : Graph) (entries : List (Key × Value)) :
    List (Nat × Nat) → Except Fault (List (Key × Value) × List Nat)
  | [] => .ok (entries, [])
  | (k, v) :: rest => do
    let (key, later) ← g.construct k
    if !isKey key then .error .malformed
    let (value, more) ← g.construct v
    let (entries, most) ← g.constructEntries (insertEntry (g.key k key) value entries) rest
    return (entries, later ++ more ++ most)

/-- The pairs of an ordered mapping, each a mapping of one pair. -/
def singlePairs (g : Graph) : List Nat → Except Fault (List Value × List Nat)
  | [] => .ok ([], [])
  | n :: ns =>
    match g.content n with
    | .mapping [(k, v)] => do
      let (key, later) ← g.construct k
      let (value, more) ← g.construct v
      let (rest, most) ← g.singlePairs ns
      return (.list [key, value] :: rest, later ++ more ++ most)
    | _ => .error .malformed

/-- Merges and reads the entries of a mapping. -/
def entries (g : Graph) (n : Nat) :
    Except Fault (List (Value × Value) × List Nat × Graph) := do
  if !g.isMapping n then .error .malformed
  let g ← g.merge n
  let (entries, later) ← g.constructEntries [] (g.pairs n)
  return (entries.map fun e => (e.1.value, e.2), later, g)

/-- Fills a collection: its value, the nodes to fill later, and the graph that is left. -/
def fill (g : Graph) (n : Nat) : Except Fault (Value × List Nat × Graph) := do
  match g.tag n, g.content n with
  | .seq, .sequence items =>
    let (vs, later) ← g.constructAll items
    return (.list vs, later, g)
  | .omap, .sequence items | .pairs, .sequence items =>
    let (vs, later) ← g.singlePairs items
    return (.list vs, later, g)
  | .map, _ =>
    let (entries, later, g) ← g.entries n
    return (.map entries, later, g)
  | .set, _ =>
    let (entries, later, g) ← g.entries n
    return (.set (entries.map (·.1)), later, g)
  | _, _ => .error .malformed

/-- Adds the nodes that were not met before. -/
def addNew (seen : List Nat) : List Nat → List Nat × List Nat
  | [] => (seen, [])
  | n :: ns =>
    if seen.contains n then addNew seen ns
    else
      let r := addNew (n :: seen) ns
      (r.1, n :: r.2)

/-- Fills collections in the order in which they were met, each of them once. -/
def fillAll (seen : List Nat) : Nat → Graph → List Nat → Except Fault Unit
  | _, _, [] => .ok ()
  | 0, _, _ => .error .malformed
  | fuel + 1, g, n :: ns => do
    let (_, later, g) ← g.fill n
    let (seen, new) := addNew seen later
    fillAll seen fuel g (ns ++ new)

/-- The value of a document with the given outermost node. -/
def value (g : Graph) (root : Nat) : Except Fault Value := do
  let (v, later) ← g.construct root
  match later with
  | [] => return v
  | n :: _ =>
    let (v, later, g) ← g.fill n
    let (seen, new) := addNew [n] later
    fillAll seen g.size g new
    return v

end Graph

/-- Loads a text that holds one YAML document. An empty text is a null. -/
def load (cs : List Char) : Except Fault Value := do
  if !cs.all isAllowed then .error .malformed
  match ← readDocument cs with
  | none => return .null
  | some (root, g) => g.value root

end Flowchart.Yaml

import Flowchart.Yaml.Node

/-!
# Merge keys

The pairs of a mapping under a merge key are put in front of the pairs beside
it, and so are those of every mapping in a list. A mapping stays merged: all
nodes that share it see its new pairs. The key `=` is a text like any other
from then on. Mappings may be merged into one another in chains of any length:
a stack that overflows on the way is left out.
-/

namespace Flowchart.Yaml

namespace Graph

/-- Makes texts of the keys `=` among the given ones. -/
def plainKeys (g : Graph) (pairs : List (Nat × Nat)) : Graph :=
  pairs.foldl (fun g p => if g.tag p.1 = .value then g.setTag p.1 .str else g) g

/-- The number of merge keys in the mappings of a document. -/
def mergeCount (g : Graph) : Nat :=
  ((List.range g.size).flatMap g.pairs).countP fun p => g.tag p.1 == .merge

/-- The position of the first merge key from a position on. -/
def mergePosition? (g : Graph) (start : Nat) (pairs : List (Nat × Nat)) : Option Nat :=
  ((pairs.drop start).findIdx? fun p => g.tag p.1 == .merge).map (start + ·)

/-- Merges a mapping. `merged` are the pairs found so far, and `start` is where the search for
merge keys goes on. Each step takes a merge key away, so that their number bounds the steps. Of
a list of mappings the first one counts most, so its pairs come last. -/
def mergeFrom : Nat → Graph → Nat → Nat → List (Nat × Nat) → Except Fault Graph
  | 0, _, _, _, _ => .error .malformed
  | fuel + 1, g, n, start, merged =>
    let pairs := g.pairs n
    match g.mergePosition? start pairs with
    | none =>
      let g := g.plainKeys (pairs.drop start)
      .ok (if merged.isEmpty then g else g.setContent n (.mapping (merged ++ pairs)))
    | some i => do
      let g := g.plainKeys ((pairs.take i).drop start)
      let g := g.setContent n (.mapping (pairs.eraseIdx i))
      let source := (pairs.getD i (0, 0)).2
      match g.content source with
      | .mapping _ =>
        let g ← mergeFrom fuel g source 0 []
        mergeFrom fuel g n i (merged ++ g.pairs source)
      | .sequence items =>
        let add := fun (state : List (Nat × Nat) × Graph) (item : Nat) =>
          if state.2.isMapping item then
            (mergeFrom fuel state.2 item 0 []).map fun g => (g.pairs item ++ state.1, g)
          else .error .malformed
        let (found, g) ← items.foldlM add ([], g)
        mergeFrom fuel g n i (merged ++ found)
      | .scalar _ => .error .malformed

/-- Merges the mappings under the merge keys of a mapping into it. -/
def merge (g : Graph) (n : Nat) : Except Fault Graph := mergeFrom (g.mergeCount + 1) g n 0 []

end Graph

end Flowchart.Yaml

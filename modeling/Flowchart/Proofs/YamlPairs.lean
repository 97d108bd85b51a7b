import Flowchart.Proofs.Json
import Flowchart.Proofs.YamlLines
import Flowchart.Proofs.YamlValues
import Mathlib.Data.List.Forall2

/-!
# The document of lines

A text of lines is read as one mapping from the keys to the values, in the
order of the lines. Each line adds two nodes, and takes up four tokens.
-/

namespace Flowchart.Yaml

open Flowchart.Text

/-! ## Nodes of a line -/

/-- The tag that a value gets. -/
def Written.tag : Written → Tag
  | quoted _ => .str
  | flag _ => .bool

def Written.node (v : Written) : Node := ⟨v.tag, .scalar (codePoints v.content)⟩

def Line.keyNode (l : Line) : Node := ⟨.str, .scalar (codePoints l.key)⟩

/-- The nodes of a line. -/
def Line.nodes (l : Line) : List Node := [l.keyNode, l.value.node]

/-- The numbers of the nodes of lines, counted from `n`. -/
def pairsFrom (n : Nat) : List Line → List (Nat × Nat)
  | [] => []
  | _ :: ls => (n, n + 1) :: pairsFrom (n + 2) ls

/-- More nodes at the end. -/
def Graph.extend (g : Graph) (ns : List Node) : Graph := ⟨g.nodes ++ ns.toArray⟩

/-- The graph of a text of lines: a mapping, and the nodes of the lines. -/
def Graph.ofLines (ls : List Line) : Graph :=
  (Graph.mk #[⟨.map, .mapping (pairsFrom 1 ls)⟩]).extend (ls.flatMap Line.nodes)

theorem length_le_chars (final : Bool) (l : Line) (ls : List Line) :
    ls.length + 1 ≤ (l.chars ++ following final ls).length := by
  have hfollowing : ls.length ≤ (following final ls).length := by
    induction ls with
    | nil => exact Nat.zero_le _
    | cons l ls ih =>
      rw [following, List.length_cons, List.length_cons, List.length_append]
      omega
  have hchars : 1 ≤ l.chars.length := by
    rw [Line.chars, List.length_append, List.length_cons]
    omega
  rw [List.length_append]
  omega

theorem Graph.size_push (g : Graph) (n : Node) : (g.push n).size = g.size + 1 :=
  Array.size_push n

theorem Graph.extend_nil (g : Graph) : g.extend [] = g := by
  rw [extend, Array.append_empty]

theorem Graph.eq_of_toList {g g' : Graph} (h : g.nodes.toList = g'.nodes.toList) : g = g' :=
  congrArg Graph.mk (Array.toList_inj.1 h)

theorem Graph.extend_push (g : Graph) (n : Node) (ns : List Node) :
    (g.push n).extend ns = g.extend (n :: ns) := by
  apply eq_of_toList
  simp [extend, push]

theorem Graph.setContent_extend (n : Node) (ns : List Node) (c : Content) :
    (((Graph.mk #[]).push n).extend ns).setContent 0 c = (Graph.mk #[⟨n.tag, c⟩]).extend ns := by
  apply eq_of_toList
  simp [setContent, extend, push]

theorem Written.scalarTag_eq (v : Written) :
    Reading.scalarTag none v.isPlain (codePoints v.content) = v.tag := by
  cases v with
  | quoted text => rfl
  | flag b => cases b <;> decide

theorem Line.Proper.scalarTag_eq {l : Line} (h : l.Proper) :
    Reading.scalarTag none true (codePoints l.key) = .str := h.text

namespace Reading

open Flowchart.Yaml.Stream

section
variable {α β : Type} {d d' : Draft} {s : Stream}

theorem bind_eq {x : Reading α} {k : α → Reading β} {a : α} (h : x d = .ok (a, d')) :
    (x >>= k) d = k a d' := by
  show (x d >>= fun r => k r.1 r.2) = _
  rw [h]
  rfl

theorem map_eq {x : Reading α} {f : α → β} {a : α} (h : x d = .ok (a, d')) :
    (f <$> x) d = .ok (f a, d') := by
  show (x d >>= fun r => pure (f r.1, r.2)) = _
  rw [h]
  rfl

theorem modify_eq (f : Draft → Draft) (d : Draft) :
    (modify f : Reading PUnit) d = .ok (⟨⟩, f d) := rfl

theorem next?_eq (h : d.stream.settle = .ok s) :
    next? d = .ok (s.tokens.head?, { d with stream := s }) := by
  show ((d.stream.settle >>= fun s => pure (s, d)) >>= _) = _
  rw [h]
  rfl

theorem next?_of_stands {t : Token} (h : Stands d.stream t) : next? d = .ok (some t, d) := by
  rw [next?_eq h.settle, h.head]

/-- A scalar without properties is read as a node of its own. -/
theorem node_scalar {inBlock indentless : Bool} {fuel : Nat} {text : List CodePoint} {plain : Bool}
    (h : Stands d.stream (.scalar text plain)) :
    node inBlock indentless (fuel + 1) d =
      .ok (d.graph.size, { d with
        stream := d.stream.take
        graph := d.graph.push ⟨scalarTag none plain text, .scalar text⟩ }) := by
  have hproperties : properties d = .ok ({}, d) := by
    rw [properties, bind_eq (next?_of_stands h)]
    rfl
  have hgiven : givenTag? {} d = .ok (none, d) := rfl
  rw [node, bind_eq (next?_of_stands h)]
  dsimp only
  rw [bind_eq hproperties, bind_eq hgiven, bind_eq (next?_of_stands h)]
  show addNode none ⟨scalarTag none (plain || false) text, .scalar text⟩
    { d with stream := d.stream.take } = _
  rw [Bool.or_false]
  rfl

/-- A scalar shows that the key or the value is not left out. -/
theorem nodeUnless_scalar {inBlock indentless : Bool} {fuel : Nat} {text : List CodePoint}
    {plain : Bool} (hs : d.stream.settle = .ok s) (h : Stands s (.scalar text plain)) :
    nodeUnless [.key, .value, .blockEnd] inBlock indentless (fuel + 2) d =
      .ok (d.graph.size, { d with
        stream := s.take
        graph := d.graph.push ⟨scalarTag none plain text, .scalar text⟩ }) := by
  rw [nodeUnless, bind_eq (next?_eq hs), h.head]
  exact node_scalar (d := { d with stream := s }) h

end

section
variable {d : Draft} {l : Line} {rest : List Char} {p : Place} {taken length : Nat}

/-- One line of a mapping: two nodes and four tokens. -/
theorem blockPairs_line (fuel : Nat) (hl : l.Proper) (hrest : Follows rest)
    (hs : d.stream.settle = .ok (block true false p (keyTokens true l.key) taken length))
    (hp : p.rest = ' ' :: (l.value.chars ++ rest)) :
    ∃ s', Behind rest [] (taken + 4) length s' ∧ ∀ pairs d',
      blockPairs (fuel + 3) { d with
        stream := s'
        graph := (d.graph.push l.keyNode).push l.value.node } = .ok (pairs, d') →
      blockPairs (fuel + 4) d = .ok ((d.graph.size, d.graph.size + 1) :: pairs, d') := by
  obtain ⟨s', hbehind, hvalue⟩ := settle_value (taken + 3) length hl.onLine hrest hp
  have hstands : Stands s' l.value.token := hbehind.stands
  -- before and behind the key token, behind the key, behind the colon, and behind the value
  let d₀ := { d with stream := block true false p (keyTokens true l.key) taken length }
  let d₁ := { d with
    stream := block true false p [.scalar (codePoints l.key) true, .value] (taken + 1) length }
  let d₂ := { d with
    stream := block true false p [.value] (taken + 2) length, graph := d.graph.push l.keyNode }
  let d₃ := { d₂ with stream := block true false p [] (taken + 3) length }
  let d₄ := { d₃ with stream := s'.take, graph := d₂.graph.push l.value.node }
  have hstart : next? d = .ok (some .key, d₀) := next?_eq hs
  have hskip : skip d₀ = .ok ((), d₁) := rfl
  have hkey : nodeUnless [.key, .value, .blockEnd] true true (fuel + 3) d₁ =
      .ok (d.graph.size, d₂) := by
    rw [nodeUnless_scalar stands_block.settle stands_block, hl.scalarTag_eq]
    rfl
  have hscalar : nodeUnless [.key, .value, .blockEnd] true true (fuel + 2) d₃ =
      .ok (d₂.graph.size, d₄) := by
    rw [nodeUnless_scalar hvalue hstands, l.value.scalarTag_eq]
    rfl
  have hafter : valueUnless [.key, .value, .blockEnd] true true (fuel + 3) d₂ =
      .ok (d₂.graph.size, d₄) := by
    rw [valueUnless, bind_eq (next?_of_stands stands_block)]
    exact hscalar
  refine ⟨s'.take, hbehind.take, fun pairs d' hpairs => ?_⟩
  have hsize : d₂.graph.size = d.graph.size + 1 := Graph.size_push ..
  rw [blockPairs, bind_eq hstart]
  dsimp only
  rw [bind_eq hskip, bind_eq hkey, bind_eq hafter, bind_eq hpairs, hsize]
  rfl

end

/-! ## All lines -/

section
variable {d : Draft} {final : Bool} {l : Line} {ls : List Line} {rest : List Char} {p : Place}
  {taken length fuel : Nat}

theorem blockPairs_end (fuel : Nat) (h : Behind rest [] taken length d.stream)
    (hrest : rest = [] ∨ rest = ['\n']) :
    ∃ s', s'.ended = true ∧ s'.tokens = [] ∧
      blockPairs (fuel + 1) d = .ok ([], { d with stream := s' }) := by
  obtain ⟨s', hended, htokens, hsettle⟩ := h.settle_end hrest
  have hstart : next? d = .ok (some .blockEnd, { d with stream := s' }) := by
    rw [next?_eq hsettle, htokens]
    rfl
  refine ⟨s'.take, hended, by rw [take, htokens]; rfl, ?_⟩
  rw [blockPairs, bind_eq hstart]
  rfl

/-- The lines of a mapping up to its end. -/
theorem blockPairs_lines (hls : ∀ l' ∈ l :: ls, l'.Proper) (hlength : 1 ≤ length)
    (hs : d.stream.settle = .ok (block true false p (keyTokens true l.key) taken length))
    (hp : p.rest = ' ' :: (l.value.chars ++ following final ls)) (hfuel : ls.length + 4 ≤ fuel) :
    ∃ s', s'.ended = true ∧ s'.tokens = [] ∧
      blockPairs fuel d = .ok (pairsFrom d.graph.size (l :: ls),
        { d with stream := s', graph := d.graph.extend ((l :: ls).flatMap Line.nodes) }) := by
  induction ls generalizing l d p taken fuel with
  | nil =>
    obtain ⟨fuel, rfl⟩ : ∃ n, fuel = n + 4 := Nat.exists_eq_add_of_le' hfuel
    have hl : l.Proper := hls l List.mem_cons_self
    obtain ⟨s', hbehind, hpair⟩ := blockPairs_line fuel hl (follows_following (by simp)) hs hp
    obtain ⟨s'', hended, htokens, hend⟩ := blockPairs_end (fuel + 2) (d := { d with
      stream := s', graph := (d.graph.push l.keyNode).push l.value.node }) hbehind
      (by cases final <;> simp [following])
    refine ⟨s'', hended, htokens, ?_⟩
    rw [hpair _ _ hend, List.flatMap_singleton, Line.nodes, ← Graph.extend_push,
      ← Graph.extend_push, Graph.extend_nil]
    rfl
  | cons l' ls ih =>
    obtain ⟨hl, hls⟩ := List.forall_mem_cons.1 hls
    have hfuel : ls.length + 1 + 4 ≤ fuel := hfuel
    obtain ⟨fuel, rfl⟩ : ∃ n, fuel = n + 4 := ⟨fuel - 4, by omega⟩
    have hfuel : ls.length + 4 ≤ fuel + 3 := by omega
    obtain ⟨s', hbehind, hpair⟩ := blockPairs_line fuel hl (follows_following hls) hs hp
    obtain ⟨q, hq, hsettle⟩ := hbehind.settle_line (hls l' List.mem_cons_self) hlength
    obtain ⟨s'', hended, htokens, hrun⟩ := ih (d := { d with
      stream := s', graph := (d.graph.push l.keyNode).push l.value.node }) hls hsettle hq hfuel
    refine ⟨s'', hended, htokens, ?_⟩
    rw [hpair _ _ hrun, Graph.extend_push, Graph.extend_push, Graph.size_push, Graph.size_push]
    rfl

end

/-! ## The document -/

theorem addCollection_eq {d d' : Draft} {tag : Tag} {start content : Content}
    {parts : Reading Content} (hdepth : d.depth < maxDepth)
    (hparts : parts { d with graph := d.graph.push ⟨tag, start⟩, depth := d.depth + 1 } =
      .ok (content, d')) :
    addCollection none tag start parts d = .ok (d.graph.size, { d' with
      depth := d.depth
      graph := d'.graph.setContent d.graph.size content }) := by
  let d₁ := { d with graph := d.graph.push ⟨tag, start⟩ }
  have hadd : addNode none ⟨tag, start⟩ d = .ok (d.graph.size, d₁) := rfl
  have hget : (get : Reading Draft) d₁ = .ok (d₁, d₁) := rfl
  rw [addCollection, bind_eq hadd, bind_eq hget]
  dsimp only
  rw [if_neg (Nat.not_le.2 hdepth), bind_eq (modify_eq ..), bind_eq hparts, bind_eq (modify_eq ..)]
  rfl

/-- A block mapping, read from its pairs. -/
theorem node_mapping {d d' : Draft} {fuel : Nat} {pairs : List (Nat × Nat)}
    (h : Stands d.stream .blockMappingStart) (hdepth : d.depth < maxDepth)
    (hpairs : blockPairs fuel { d with
      stream := d.stream.take
      graph := d.graph.push ⟨.map, .mapping []⟩
      depth := d.depth + 1 } = .ok (pairs, d')) :
    node true false (fuel + 1) d = .ok (d.graph.size, { d' with
      depth := d.depth
      graph := d'.graph.setContent d.graph.size (.mapping pairs) }) := by
  have hproperties : properties d = .ok ({}, d) := by
    rw [properties, bind_eq (next?_of_stands h)]
    rfl
  have hgiven : givenTag? {} d = .ok (none, d) := rfl
  have hparts : (Content.mapping <$> (do skip; blockPairs fuel))
      { d with graph := d.graph.push ⟨.map, .mapping []⟩, depth := d.depth + 1 } =
        .ok (.mapping pairs, d') := map_eq hpairs
  rw [node, bind_eq (next?_of_stands h)]
  dsimp only
  rw [bind_eq hproperties, bind_eq hgiven, bind_eq (next?_of_stands h)]
  exact addCollection_eq hdepth hparts

theorem documentEnd_ended {d : Draft} {fuel : Nat} (hended : d.stream.ended = true)
    (htokens : d.stream.tokens = []) : documentEnd (fuel + 1) d = .ok ((), d) := by
  have hnext : next? d = .ok (none, d) := by
    rw [next?_eq (settleWithin_ended hended), htokens]
    rfl
  rw [documentEnd, bind_eq hnext]
  rfl

section
variable {l : Line} {ls : List Line} {final : Bool}

/-- The first line opens the mapping. -/
theorem node_lines {p : Place} (length fuel : Nat) (hls : ∀ l' ∈ l :: ls, l'.Proper)
    (hlength : 1 ≤ length) (hfuel : ls.length + 4 ≤ fuel)
    (hp : p.rest = ' ' :: (l.value.chars ++ following final ls)) :
    ∃ d', d'.stream.ended = true ∧ d'.stream.tokens = [] ∧ d'.graph = .ofLines (l :: ls) ∧
      node true false (fuel + 1)
        { stream := block true false p (keyTokens false l.key) 0 length } = .ok (0, d') := by
  let s₁ := block true false p (keyTokens false l.key) 0 length
  have htake : s₁.take = block true false p (keyTokens true l.key) 1 length := rfl
  have hkey : s₁.take.settle = .ok (block true false p (keyTokens true l.key) 1 length) := by
    rw [htake]
    exact stands_block.settle
  -- the mapping is open, and its first key is next
  obtain ⟨s', hended, htokens, hpairs⟩ := blockPairs_lines
    (d := { stream := s₁.take, graph := ({} : Graph).push ⟨.map, .mapping []⟩, depth := 1 })
    hls hlength hkey hp hfuel
  exact ⟨_, hended, htokens, Graph.setContent_extend ..,
    node_mapping (d := { stream := s₁ }) stands_block (by decide : 0 < maxDepth) hpairs⟩

/-- A text of lines holds one mapping. -/
theorem readDocument_lines (hls : ∀ l' ∈ l :: ls, l'.Proper) :
    readDocument (l.chars ++ following final ls) = .ok (some (0, .ofLines (l :: ls))) := by
  obtain ⟨p, hp, hsettle⟩ := settle_ofChars (following final ls) (hls l List.mem_cons_self)
  have hlength := length_le_chars final l ls
  generalize l.chars ++ following final ls = cs at hsettle hlength ⊢
  obtain ⟨d', hended, htokens, hgraph, hnode⟩ :=
    node_lines cs.length (16 * cs.length + 15) hls (by omega) (by omega) hp
  have hdocument : document? (16 * cs.length + 16) { stream := .ofChars cs } =
      .ok (some 0, d') := by
    rw [document?, bind_eq (next?_eq hsettle)]
    show (node true false (16 * cs.length + 15 + 1) >>= _) _ = _
    rw [bind_eq hnode, bind_eq (documentEnd_ended hended htokens)]
    rfl
  rw [readDocument, hdocument, ← hgraph]
  rfl

end

end Reading

/-! ## Values -/

def Written.value : Written → Value
  | quoted text => .str (codePoints text)
  | flag b => .bool b

/-- The member of an object that a line gives. -/
def Line.member (l : Line) : RawText × Value := (codePoints l.key, l.value.value)

theorem boolOfText_flagWord (b : Bool) : boolOfText (codePoints (Written.flagWord b)) = .ok b := by
  cases b <;> decide

theorem insertEntry_of_not_mem {k : RawText} {v : Value} {found : List (RawText × Value)}
    (h : k ∉ found.map Prod.fst) :
    insertEntry ⟨.str k, 0⟩ v (found.map fun m => (⟨.str m.1, 0⟩, m.2)) =
      (found ++ [(k, v)]).map fun m => (⟨.str m.1, 0⟩, m.2) := by
  induction found with
  | nil => rfl
  | cons m found ih =>
    rw [List.map_cons, List.mem_cons, not_or] at h
    have hsame : Key.same ⟨.str m.1, 0⟩ ⟨.str k, 0⟩ = false := beq_false_of_ne (Ne.symm h.1)
    rw [List.map_cons, insertEntry, hsame, ih h.2]
    rfl

namespace Graph

/-- The nodes of a line stand at a pair of numbers. -/
def Holds (g : Graph) (p : Nat × Nat) (l : Line) : Prop :=
  g.node p.1 = l.keyNode ∧ g.node p.2 = l.value.node

section
variable {g : Graph} {n : Nat} {v : Written} {l : Line} {ls : List Line} {pairs : List (Nat × Nat)}

theorem construct_node (h : g.node n = v.node) : g.construct n = .ok (v.value, []) := by
  have htag : g.tag n = v.tag := congrArg Node.tag h
  have htext : g.text n = .ok (codePoints v.content) := by
    rw [text, textWithin, content, h]
    rfl
  rw [construct, htag, htext]
  cases v with
  | quoted text => rfl
  | flag b =>
    show Except.map _ (Except.map _ (boolOfText (codePoints (Written.flagWord b)))) = _
    rw [boolOfText_flagWord]
    rfl

theorem Holds.construct_key {p : Nat × Nat} (h : g.Holds p l) :
    g.construct p.1 = .ok (.str (codePoints l.key), []) :=
  construct_node (v := .quoted l.key) h.1

/-- The keys differ, and so every line adds an entry at the end. -/
theorem constructEntries_lines (found : List (RawText × Value)) (h : List.Forall₂ g.Holds pairs ls)
    (hkeys : ((found ++ ls.map Line.member).map Prod.fst).Nodup) :
    g.constructEntries (found.map fun m => (⟨.str m.1, 0⟩, m.2)) pairs =
      .ok ((found ++ ls.map Line.member).map fun m => (⟨.str m.1, 0⟩, m.2), []) := by
  induction h generalizing found with
  | nil =>
    rw [List.map_nil, List.append_nil]
    rfl
  | @cons p l pairs ls hp h ih =>
    rw [List.map_cons] at hkeys ⊢
    have hnew : l.member.1 ∉ found.map Prod.fst := by
      rw [List.map_append, List.map_cons] at hkeys
      exact fun hmem => (List.nodup_append.1 hkeys).2.2 _ hmem _ List.mem_cons_self rfl
    have hcons : found ++ l.member :: ls.map Line.member =
        (found ++ [l.member]) ++ ls.map Line.member := by simp
    rw [hcons] at hkeys ⊢
    rw [constructEntries, hp.construct_key]
    show (g.construct p.2 >>= _) = _
    rw [construct_node hp.2]
    show (g.constructEntries (insertEntry ⟨.str l.member.1, 0⟩ l.member.2 _) pairs >>= _) = _
    rw [insertEntry_of_not_mem hnew, ih _ hkeys]
    rfl

theorem forall₂_pairsFrom (before : List Node) (ls : List Line)
    (hg : g.nodes = (before ++ ls.flatMap Line.nodes).toArray) :
    List.Forall₂ g.Holds (pairsFrom before.length ls) ls := by
  induction ls generalizing before with
  | nil => exact .nil
  | cons l ls ih =>
    have hnodes : before ++ (l :: ls).flatMap Line.nodes =
        (before ++ l.nodes) ++ ls.flatMap Line.nodes := by simp
    rw [hnodes] at hg
    refine .cons ⟨?_, ?_⟩ ?_
    · simp [node, hg, Line.nodes]
    · simp [node, hg, Line.nodes]
    · have := ih (before ++ l.nodes) hg
      rwa [List.length_append] at this

theorem node_ofLines (ls : List Line) :
    (ofLines ls).node 0 = ⟨.map, .mapping (pairsFrom 1 ls)⟩ := by
  simp [node, ofLines, extend]

theorem pairs_ofLines (ls : List Line) : (ofLines ls).pairs 0 = pairsFrom 1 ls := by
  rw [pairs, content, node_ofLines]

theorem ofLines_holds (ls : List Line) :
    List.Forall₂ (ofLines ls).Holds ((ofLines ls).pairs 0) ls := by
  rw [pairs_ofLines]
  exact forall₂_pairsFrom [⟨.map, .mapping (pairsFrom 1 ls)⟩] ls (by simp [ofLines, extend])

theorem exists_holds {ls : List Line} {p : Nat × Nat} (hp : p ∈ (ofLines ls).pairs 0) :
    ∃ l, (ofLines ls).Holds p l := by
  have h : List.Forall₂ (fun p l => (∃ l', (ofLines ls).Holds p l') ∧ (ofLines ls).Holds p l)
      ((ofLines ls).pairs 0) ls := (ofLines_holds ls).imp fun p l h => ⟨⟨l, h⟩, h⟩
  exact ((List.forall₂_and_left _ _).1 h).1 p hp

theorem isPlain_node (v : Written) : v.node.isPlain = true := by
  cases v <;> rfl

theorem flat_ofLines (ls : List Line) : (ofLines ls).Flat 0 where
  tag := congrArg Node.tag (node_ofLines ls)
  mapping := by rw [isMapping, content, node_ofLines]
  keys := by
    refine List.all_eq_true.2 fun p hp => ?_
    obtain ⟨l, hkey, -⟩ := exists_holds hp
    rw [Graph.tag, hkey]
    rfl
  values := by
    refine List.all_eq_true.2 fun p hp => ?_
    obtain ⟨l, -, hvalue⟩ := exists_holds hp
    rw [hvalue]
    exact isPlain_node l.value

/-- The value of a text of lines. -/
theorem value_ofLines (hkeys : ((ls.map Line.member).map Prod.fst).Nodup) :
    (ofLines ls).value 0 = .ok (.object (ls.map Line.member)) := by
  have hflat := flat_ofLines ls
  have hconstruct : (ofLines ls).construct 0 = .ok (.map [], [0]) := by rw [construct, hflat.tag]
  have hread : (ofLines ls).constructEntries [] ((ofLines ls).pairs 0) =
      .ok ((ls.map Line.member).map fun m => (⟨.str m.1, 0⟩, m.2), []) :=
    constructEntries_lines [] (ofLines_holds ls) hkeys
  have hentries : (ofLines ls).entries 0 =
      .ok (Value.entriesOf (ls.map Line.member), [], ofLines ls) := by
    rw [entries, hflat.mapping, hflat.merge_eq]
    show ((ofLines ls).constructEntries [] ((ofLines ls).pairs 0) >>= _) = _
    rw [hread, Value.entriesOf]
    show Except.ok (_, _, _) = _
    simp
  have hfill : (ofLines ls).fill 0 = .ok (.object (ls.map Line.member), [], ofLines ls) := by
    rw [fill, hflat.tag, hentries]
    rfl
  rw [value, hconstruct]
  show ((ofLines ls).fill 0 >>= _) = _
  rw [hfill]
  show (fillAll [0] (ofLines ls).size (ofLines ls) [] >>= _) = _
  rw [fillAll_nil]
  rfl

end

end Graph

/-! ## Whole texts -/

/-- Lines one below the other, with or without a line feed at the end. -/
def linesText (ls : List Line) (final : Bool) : List Char :=
  ['\n'].intercalate (ls.map Line.chars) ++ if final then ['\n'] else []

theorem linesText_cons (l : Line) (ls : List Line) (final : Bool) :
    linesText (l :: ls) final = l.chars ++ following final ls := by
  induction ls generalizing l with
  | nil => simp [linesText, following]
  | cons l' ls ih => simp [← ih, following, linesText]

section
variable {ls : List Line} {final : Bool} {c : Char}

theorem mem_following (h : c ∈ following final ls) : c = '\n' ∨ ∃ l ∈ ls, c ∈ l.chars := by
  induction ls with
  | nil =>
    cases final with
    | true => exact .inl (List.mem_singleton.1 h)
    | false => cases h
  | cons l ls ih =>
    rcases List.mem_cons.1 h with rfl | h
    · exact .inl rfl
    rcases List.mem_append.1 h with h | h
    · exact .inr ⟨l, List.mem_cons_self, h⟩
    rcases ih h with hc | ⟨l', hl', hc⟩
    · exact .inl hc
    · exact .inr ⟨l', List.mem_cons_of_mem l hl', hc⟩

theorem mem_linesText (h : c ∈ linesText ls final) : c = '\n' ∨ ∃ l ∈ ls, c ∈ l.chars := by
  cases ls with
  | nil => exact mem_following (show c ∈ following final [] from h)
  | cons l ls =>
    rw [linesText_cons] at h
    exact mem_following (show c ∈ following final (l :: ls) from List.mem_cons_of_mem '\n' h)

/-- Lines with distinct keys are loaded as an object. -/
theorem load_linesText (hne : ls ≠ []) (hls : ∀ l ∈ ls, l.Proper)
    (hkeys : ((ls.map Line.member).map Prod.fst).Nodup)
    (hallowed : ∀ c ∈ linesText ls final, isAllowed c = true) :
    load (linesText ls final) = .ok (.object (ls.map Line.member)) := by
  obtain ⟨l, ls, rfl⟩ := List.exists_cons_of_ne_nil hne
  rw [load, List.all_eq_true.2 hallowed, linesText_cons, Reading.readDocument_lines hls]
  exact Graph.value_ofLines hkeys

end

end Flowchart.Yaml

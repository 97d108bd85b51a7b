import Flowchart.Yaml.Document

/-!
# Faults of reading a YAML document

A text is cut into tokens, and the tokens are put together to nodes. Whatever
the text, this ends in nodes or in one of four faults: the text is malformed,
its collections are nested too deep, an escape names no character, or a version
number has too many digits.
-/

namespace Flowchart.Yaml

/-- A computation ends with a value in `P` or with a fault in `E`. -/
def Ends {α : Type} (P : α → Prop) (E : Fault → Prop) : Except Fault α → Prop
  | .ok a => P a
  | .error f => E f

section
variable {α β : Type} {P : α → Prop} {Q : β → Prop} {E : Fault → Prop} {x : Except Fault α}

theorem Ends.bind {k : α → Except Fault β} (h : Ends P E x) (hk : ∀ a, P a → Ends Q E (k a)) :
    Ends Q E (x >>= k) := by
  cases x with
  | ok a => exact hk a h
  | error f => exact h

theorem Ends.map {g : α → β} (h : Ends P E x) (hg : ∀ a, P a → Q (g a)) : Ends Q E (x.map g) := by
  cases x with
  | ok a => exact hg a h
  | error f => exact h

theorem Ends.imp {P' : α → Prop} {E' : Fault → Prop} (h : Ends P E x) (hP : ∀ a, P a → P' a)
    (hE : ∀ f, E f → E' f) : Ends P' E' x := by
  cases x with
  | ok a => exact hP a h
  | error f => exact hE f h

theorem Ends.fault {f : Fault} (h : Ends P E x) (hx : x = .error f) : E f := by
  rw [hx] at h; exact h

end

/-- The computation fails, if at all, with a fault in `E`. -/
abbrev FailsIn {α : Type} (E : Fault → Prop) (x : Except Fault α) : Prop := Ends (fun _ => True) E x

section
variable {α β : Type} {E : Fault → Prop} {x y : Except Fault α}

theorem FailsIn.map (h : FailsIn E x) (g : α → β) : FailsIn E (x.map g) :=
  Ends.map h fun _ _ => trivial

theorem FailsIn.ite {c : Prop} [Decidable c] (hx : FailsIn E x) (hy : FailsIn E y) :
    FailsIn E (if c then x else y) := by
  split
  · exact hx
  · exact hy

end

/-- The faults that reading a document can come to. -/
inductive Fault.OfReading : Fault → Prop where
  | malformed : OfReading .malformed
  | tooDeep : OfReading .tooDeep
  | noCharacter {code : Nat} : 0x110000 ≤ code → OfReading (.noCharacter code)
  | longNumber {digits : Nat} : Number.maxDigits < digits → OfReading (.number (.tooLong digits))

/-- The computation fails, if at all, as reading can. -/
abbrev Orderly {α : Type} (x : Except Fault α) : Prop := FailsIn Fault.OfReading x

/-! ## Scalars -/

theorem readFoldedBreaks_orderly (fuel : Nat) (cs : List Char) :
    Orderly (readFoldedBreaks fuel cs) := by
  induction fuel generalizing cs with
  | zero => exact .malformed
  | succ fuel ih =>
    rw [readFoldedBreaks]
    split
    · exact .malformed
    · split
      · rename_i rest _
        split
        · have h := ih rest
          split
          · next hf => exact h.fault hf
          · trivial
        · trivial
      · trivial

theorem readSingle_orderly (fuel : Nat) (cs : List Char) : Orderly (readSingle fuel cs) := by
  induction fuel generalizing cs with
  | zero => exact .malformed
  | succ fuel ih =>
    cases cs with
    | nil => exact .malformed
    | cons c cs =>
      unfold readSingle
      dsimp only
      split
      · split
        · exact (ih _).map _
        · trivial
      · split
        · rename_i rest _
          have h := readFoldedBreaks_orderly (rest.length + 1) rest
          split
          · split
            · next hf => exact h.fault hf
            · exact (ih _).map _
          · exact (ih _).map _
        · exact .malformed

/-- Only a code beyond the last character is a fault of its own. -/
theorem readDouble_orderly (fuel : Nat) (cs : List Char) : Orderly (readDouble fuel cs) := by
  induction fuel generalizing cs with
  | zero => exact .malformed
  | succ fuel ih =>
    have hbreaks (rest : List Char) := readFoldedBreaks_orderly (rest.length + 1) rest
    cases cs with
    | nil => exact .malformed
    | cons c cs =>
      unfold readDouble
      dsimp only
      split
      · trivial
      · split
        · split
          · exact .malformed
          · split
            · exact (ih _).map _
            · split
              · split
                · exact .malformed
                · split
                  · exact (ih _).map _
                  · next hcode => exact .noCharacter (Nat.le_of_not_lt hcode)
              · split
                · split
                  · next hf => exact (hbreaks _).fault hf
                  · exact (ih _).map _
                · exact .malformed
        · split
          · split
            · split
              · next hf => exact (hbreaks _).fault hf
              · exact (ih _).map _
            · exact (ih _).map _
          · exact .malformed

theorem readBlock_orderly (folded : Bool) (outer : Int) (cs : List Char) :
    Orderly (readBlock folded outer cs) := by
  unfold readBlock
  split
  · exact .malformed
  · split
    · exact .malformed
    · dsimp only
      split <;> trivial

/-! ## Properties and directives -/

theorem readName_orderly (cs : List Char) : Orderly (readName cs) := by
  unfold readName
  dsimp only
  split
  · exact .malformed
  · split
    · trivial
    · exact .malformed

theorem readEscapedBytes_orderly (fuel : Nat) (cs : List Char) :
    Orderly (readEscapedBytes fuel cs) := by
  fun_induction readEscapedBytes fuel cs with
  | case1 => exact .malformed
  | case2 fuel cs n rest hn ih => exact ih.map _
  | case3 => trivial

theorem readTagChars_orderly (fuel : Nat) (cs : List Char) : Orderly (readTagChars fuel cs) := by
  induction fuel generalizing cs with
  | zero => exact .malformed
  | succ fuel ih =>
    rw [readTagChars]
    split
    · split
      · next hf => exact (readEscapedBytes_orderly ..).fault hf
      · split
        · exact .malformed
        · exact (ih _).map _
    · trivial

theorem readTagText_orderly (cs : List Char) : Orderly (readTagText cs) := by
  unfold readTagText
  split
  · exact .malformed
  · split
    · exact (readTagChars_orderly ..).map _
    · exact .malformed

theorem readHandle_orderly (cs : List Char) : Orderly (readHandle cs) := by
  unfold readHandle
  split
  · split
    · trivial
    · split
      · trivial
      · exact .malformed
  · exact .malformed

theorem Orderly.atFieldEnd {α : Type} {r : Read α} (h : Orderly r) : Orderly (atFieldEnd r) := by
  unfold Yaml.atFieldEnd
  split
  · split
    · trivial
    · exact .malformed
  · exact h

theorem readTag_orderly (cs : List Char) : Orderly (readTag cs) := by
  refine Orderly.atFieldEnd ?_
  split
  · split
    · trivial
    · exact .malformed
    · next hf => exact (readTagText_orderly _).fault hf
  · split
    · trivial
    · split
      · split
        · next hf => exact (readHandle_orderly _).fault hf
        · exact (readTagText_orderly _).map _
      · exact (readTagText_orderly _).map _

/-- Only a number that is too long is a fault of its own. -/
theorem readDigits_orderly (cs : List Char) : Orderly (readDigits cs) := by
  unfold readDigits
  dsimp only
  split
  · exact .malformed
  · split
    · next hlong => exact .longNumber hlong
    · trivial

theorem readVersion_orderly (cs : List Char) : Orderly (readVersion cs) := by
  refine Orderly.atFieldEnd ?_
  split
  · exact (readDigits_orderly _).map _
  · exact .malformed
  · next hf => exact (readDigits_orderly _).fault hf

theorem readTagDirective_orderly (cs : List Char) : Orderly (readTagDirective cs) := by
  refine Orderly.atFieldEnd ?_
  split
  · next hf => exact (readHandle_orderly _).fault hf
  · split
    · exact (readTagText_orderly _).map _
    · exact .malformed

theorem readDirective_orderly (cs : List Char) : Orderly (readDirective cs) := by
  have hread (name : String) (rest : List Char) : Orderly
      (if name == "YAML" then readVersion rest
      else if name == "TAG" then readTagDirective rest
      else .ok (.other, rest.dropWhile (!isBreak ·))) := by
    split
    · exact readVersion_orderly rest
    · split
      · exact readTagDirective_orderly rest
      · trivial
  unfold readDirective
  dsimp only
  split
  · exact .malformed
  · split
    · next hf => exact (hread _ _).fault hf
    · split
      · exact .malformed
      · trivial

/-! ## Tokens -/

namespace Stream

theorem dropStaleKeys_orderly (s : Stream) : Orderly s.dropStaleKeys := by
  unfold dropStaleKeys
  dsimp only
  split
  · exact .malformed
  · trivial

theorem dropKey_orderly (s : Stream) : Orderly s.dropKey := by
  unfold dropKey
  split
  · trivial
  · split
    · exact .malformed
    · trivial

theorem saveKey_orderly (s : Stream) : Orderly s.saveKey := by
  unfold saveKey
  split
  · exact s.dropKey_orderly.bind fun _ _ => trivial
  · trivial

theorem openFor_orderly (t : Token) (s : Stream) : Orderly (s.openFor t) := by
  unfold openFor
  split
  · trivial
  · split
    · exact .malformed
    · trivial

theorem directive_orderly (s : Stream) : Orderly s.directive :=
  (dropKey_orderly _).bind fun _ _ => (readDirective_orderly _).bind fun _ _ => trivial

theorem flowEnd_orderly (t : Token) (s : Stream) : Orderly (s.flowEnd t) := by
  refine s.dropKey_orderly.bind fun s _ => ?_
  dsimp only
  split
  · exact .malformed
  · trivial

theorem blockEntry_orderly (s : Stream) : Orderly s.blockEntry :=
  (openFor_orderly _ s).bind fun _ _ => (dropKey_orderly _).bind fun _ _ => trivial

theorem explicitKey_orderly (s : Stream) : Orderly s.explicitKey :=
  (openFor_orderly _ s).bind fun _ _ => (dropKey_orderly _).bind fun _ _ => trivial

theorem value_orderly (s : Stream) : Orderly s.value := by
  unfold value
  split
  · trivial
  · exact (openFor_orderly _ s).bind fun _ _ => trivial

theorem nodeToken_orderly {α : Type} {read : List Char → Read α} (h : ∀ cs, Orderly (read cs))
    (token : α → Token) (s : Stream) : Orderly (s.nodeToken read token) :=
  s.saveKey_orderly.bind fun _ _ => (h _).bind fun _ _ => trivial

theorem blockScalar_orderly (folded : Bool) (s : Stream) : Orderly (s.blockScalar folded) :=
  (dropKey_orderly _).bind fun _ _ => (readBlock_orderly ..).bind fun _ _ => trivial

theorem token_orderly (c : Char) (s : Stream) : Orderly (s.token c) := by
  have hmark (t : Token) : Orderly (s.documentMark t) :=
    (dropKey_orderly _).bind fun _ _ => trivial
  have hflow (t : Token) : Orderly (s.flowStart t) := s.saveKey_orderly.bind fun _ _ => trivial
  have hentry : Orderly s.flowEntry := (dropKey_orderly _).bind fun _ _ => trivial
  have hplain : Orderly s.plain := s.saveKey_orderly.bind fun _ _ => trivial
  unfold token
  dsimp only
  -- one part for each kind of token, in the order in which they are told apart
  exact .ite s.directive_orderly <| .ite (hmark _) <| .ite (hmark _) <| .ite (hflow _) <|
    .ite (hflow _) <| .ite (flowEnd_orderly _ s) <| .ite (flowEnd_orderly _ s) <| .ite hentry <|
    .ite s.blockEntry_orderly <| .ite s.explicitKey_orderly <| .ite s.value_orderly <|
    .ite (nodeToken_orderly readName_orderly _ s) <|
    .ite (nodeToken_orderly readName_orderly _ s) <|
    .ite (nodeToken_orderly readTag_orderly _ s) <| .ite (blockScalar_orderly _ s) <|
    .ite (blockScalar_orderly _ s) <|
    .ite (nodeToken_orderly (fun _ => readSingle_orderly ..) _ s) <|
    .ite (nodeToken_orderly (fun _ => readDouble_orderly ..) _ s) <| .ite hplain .malformed

theorem more_orderly (s : Stream) : Orderly s.more := by
  refine s.toNextToken.dropStaleKeys_orderly.bind fun s _ => ?_
  dsimp only
  split
  · exact (dropKey_orderly _).bind fun _ _ => trivial
  · exact token_orderly ..

theorem settle_orderly (s : Stream) : Orderly s.settle := by
  have hwithin (fuel : Nat) (s : Stream) : Orderly (s.settleWithin fuel) := by
    induction fuel generalizing s with
    | zero => trivial
    | succ fuel ih =>
      rw [settleWithin]
      split
      · trivial
      · split
        · exact s.more_orderly.bind fun s _ => ih s
        · refine s.dropStaleKeys_orderly.bind fun s _ => ?_
          split
          · exact s.more_orderly.bind fun s _ => ih s
          · trivial
  exact hwithin ..

end Stream

/-! ## Nodes -/

namespace Reading

/-- A step fails, if at all, as reading can, whatever was read before it. -/
def Orderly {α : Type} (x : Reading α) : Prop := ∀ d, Yaml.Orderly (x d)

section
variable {α β : Type}

theorem Orderly.bind {x : Reading α} {k : α → Reading β} (h : Orderly x)
    (hk : ∀ a, Orderly (k a)) : Orderly (x >>= k) :=
  fun d => Ends.bind (h d) fun p _ => hk p.1 p.2

theorem Orderly.map {x : Reading α} (h : Orderly x) (g : α → β) : Orderly (g <$> x) :=
  fun d => Ends.bind (h d) fun _ _ => trivial

theorem pure_orderly (a : α) : Orderly (pure a : Reading α) := fun _ => trivial

theorem refuse_orderly : Orderly (refuse : Reading α) := fun _ => .malformed

theorem get_orderly : Orderly (get : Reading Draft) := fun _ => trivial

theorem set_orderly (d : Draft) : Orderly (set d : Reading Unit) := fun _ => trivial

theorem lift_orderly {x : Except Fault α} (h : Yaml.Orderly x) : Orderly (liftM x : Reading α) :=
  fun _ => Ends.bind h fun _ _ => trivial

theorem modify_orderly (g : Draft → Draft) : Orderly (modify g : Reading Unit) := fun _ => trivial

end

theorem next?_orderly : Orderly next? :=
  get_orderly.bind fun d => (lift_orderly d.stream.settle_orderly).bind fun _ =>
    (set_orderly _).bind fun _ => pure_orderly _

theorem skip_orderly : Orderly skip := modify_orderly _

theorem addNode_orderly (anchor? : Option String) (n : Node) : Orderly (addNode anchor? n) := by
  refine get_orderly.bind fun d => ?_
  dsimp only
  split
  · exact (set_orderly _).bind fun _ => pure_orderly _
  · split
    · exact refuse_orderly.bind fun _ => (set_orderly _).bind fun _ => pure_orderly _
    · exact (set_orderly _).bind fun _ => pure_orderly _

theorem addCollection_orderly (anchor? : Option String) (tag : Tag) (start : Content)
    {parts : Reading Content} (h : Orderly parts) :
    Orderly (addCollection anchor? tag start parts) := by
  refine (addNode_orderly _ _).bind fun id => get_orderly.bind fun d => ?_
  have hrest : Orderly (do
      modify fun d' => { d' with depth := d.depth + 1 }
      let content ← parts
      modify fun d' => { d' with depth := d.depth, graph := d'.graph.setContent id content }
      return id) :=
    (modify_orderly _).bind fun _ => h.bind fun _ => (modify_orderly _).bind fun _ =>
      pure_orderly _
  dsimp only
  split
  · intro d'
    exact .tooDeep
  · exact hrest

theorem named_orderly (name : String) : Orderly (named name) := by
  refine get_orderly.bind fun d => ?_
  split
  · exact pure_orderly _
  · exact refuse_orderly

theorem anchorAfter_orderly (tag? : Option (Option String × String)) :
    Orderly (anchorAfter tag?) := by
  refine next?_orderly.bind fun t => ?_
  split
  · exact skip_orderly.bind fun _ => pure_orderly _
  · exact pure_orderly _

theorem tagAfter_orderly (anchor? : Option String) : Orderly (tagAfter anchor?) := by
  refine next?_orderly.bind fun t => ?_
  split
  · exact skip_orderly.bind fun _ => pure_orderly _
  · exact pure_orderly _

theorem properties_orderly : Orderly properties := by
  refine next?_orderly.bind fun t => ?_
  split
  · exact skip_orderly.bind fun _ => tagAfter_orderly _
  · exact skip_orderly.bind fun _ => anchorAfter_orderly _
  · exact pure_orderly _

theorem expandTag_orderly (t : Option String × String) : Orderly (expandTag t) := by
  unfold expandTag
  split
  · exact pure_orderly _
  · refine get_orderly.bind fun d => ?_
    split
    · exact pure_orderly _
    · exact refuse_orderly

theorem givenTag?_orderly (p : Properties) : Orderly (givenTag? p) := by
  unfold givenTag?
  split
  · exact pure_orderly _
  · exact (expandTag_orderly _).bind fun _ => pure_orderly _

theorem propertiesOnly_orderly (p : Properties) (given? : Option Tag) :
    Orderly (propertiesOnly p given?) := by
  unfold propertiesOnly
  split
  · exact addNode_orderly _ _
  · exact refuse_orderly

theorem comma_orderly : Orderly comma := by
  refine next?_orderly.bind fun t => ?_
  split
  · exact skip_orderly
  · exact refuse_orderly

/-- All readers of nodes, with the same fuel. -/
structure NodesOrderly (fuel : Nat) : Prop where
  node (block indentless : Bool) : Orderly (node block indentless fuel)
  nodeUnless (stops : List Token) (block indentless : Bool) :
    Orderly (nodeUnless stops block indentless fuel)
  valueUnless (stops : List Token) (block indentless : Bool) :
    Orderly (valueUnless stops block indentless fuel)
  blockItems : Orderly (blockItems fuel)
  indentlessItems : Orderly (indentlessItems fuel)
  blockPairs : Orderly (blockPairs fuel)
  flowItems (first : Bool) : Orderly (flowItems first fuel)
  flowPairs (first : Bool) : Orderly (flowPairs first fuel)

section
variable {fuel : Nat}

theorem NodesOrderly.node_succ (h : NodesOrderly fuel) (block indentless : Bool) :
    Orderly (Reading.node block indentless (fuel + 1)) := by
  rw [Reading.node]
  refine next?_orderly.bind fun t => ?_
  split
  · exact skip_orderly.bind fun _ => named_orderly _
  · refine properties_orderly.bind fun p => (givenTag?_orderly p).bind fun given? => ?_
    have hsequence {items : Reading (List Nat)} (hi : Orderly items) := addCollection_orderly
      p.anchor? (given?.getD .seq) (.sequence []) (hi.map Content.sequence)
    have hmapping {pairs : Reading (List (Nat × Nat))} (hp : Orderly pairs) :=
      addCollection_orderly p.anchor? (given?.getD .map) (.mapping []) (hp.map Content.mapping)
    have hempty := propertiesOnly_orderly p given?
    refine next?_orderly.bind fun t => ?_
    split
    · split
      · exact hsequence h.indentlessItems
      · exact hempty
    · exact skip_orderly.bind fun _ => addNode_orderly _ _
    · exact hsequence (skip_orderly.bind fun _ => h.flowItems true)
    · exact hmapping (skip_orderly.bind fun _ => h.flowPairs true)
    · split
      · exact hsequence (skip_orderly.bind fun _ => h.blockItems)
      · exact hempty
    · split
      · exact hmapping (skip_orderly.bind fun _ => h.blockPairs)
      · exact hempty
    · exact hempty

theorem NodesOrderly.nodeUnless_succ (h : NodesOrderly fuel) (stops : List Token)
    (block indentless : Bool) :
    Orderly (Reading.nodeUnless stops block indentless (fuel + 1)) := by
  rw [Reading.nodeUnless]
  refine next?_orderly.bind fun t => ?_
  split
  · exact addNode_orderly _ _
  · exact h.node _ _

theorem NodesOrderly.valueUnless_succ (h : NodesOrderly fuel) (stops : List Token)
    (block indentless : Bool) :
    Orderly (Reading.valueUnless stops block indentless (fuel + 1)) := by
  rw [Reading.valueUnless]
  refine next?_orderly.bind fun t => ?_
  split
  · exact skip_orderly.bind fun _ => h.nodeUnless _ _ _
  · exact addNode_orderly _ _

theorem NodesOrderly.blockItems_succ (h : NodesOrderly fuel) :
    Orderly (Reading.blockItems (fuel + 1)) := by
  rw [Reading.blockItems]
  refine next?_orderly.bind fun t => ?_
  split
  · exact skip_orderly.bind fun _ => (h.nodeUnless _ _ _).bind fun _ => h.blockItems.bind fun _ =>
      pure_orderly _
  · exact skip_orderly.bind fun _ => pure_orderly _
  · exact refuse_orderly

theorem NodesOrderly.indentlessItems_succ (h : NodesOrderly fuel) :
    Orderly (Reading.indentlessItems (fuel + 1)) := by
  rw [Reading.indentlessItems]
  refine next?_orderly.bind fun t => ?_
  split
  · exact skip_orderly.bind fun _ => (h.nodeUnless _ _ _).bind fun _ =>
      h.indentlessItems.bind fun _ => pure_orderly _
  · exact pure_orderly _

theorem NodesOrderly.blockPairs_succ (h : NodesOrderly fuel) :
    Orderly (Reading.blockPairs (fuel + 1)) := by
  rw [Reading.blockPairs]
  refine next?_orderly.bind fun t => ?_
  split
  · exact skip_orderly.bind fun _ => (h.nodeUnless _ _ _).bind fun _ =>
      (h.valueUnless _ _ _).bind fun _ => h.blockPairs.bind fun _ => pure_orderly _
  · exact skip_orderly.bind fun _ => pure_orderly _
  · exact refuse_orderly

/-- The comma that stands before every entry but the first. -/
theorem Orderly.afterComma {α : Type} {k : Reading α} (hk : Orderly k) (first : Bool) :
    Orderly (do
      if !first then comma
      k) := by
  dsimp only
  split
  · exact comma_orderly.bind fun _ => hk
  · exact hk

theorem NodesOrderly.flowItems_succ (h : NodesOrderly fuel) (first : Bool) :
    Orderly (Reading.flowItems first (fuel + 1)) := by
  rw [Reading.flowItems]
  refine next?_orderly.bind fun t => ?_
  split
  · exact skip_orderly.bind fun _ => pure_orderly _
  · refine Orderly.afterComma (next?_orderly.bind fun t => ?_) first
    split
    · refine (addCollection_orderly none .map (.mapping []) ?_).bind fun _ =>
        (h.flowItems _).bind fun _ => pure_orderly _
      exact skip_orderly.bind fun _ => (h.nodeUnless _ _ _).bind fun _ =>
        (h.valueUnless _ _ _).bind fun _ => pure_orderly _
    · exact skip_orderly.bind fun _ => pure_orderly _
    · exact (h.node _ _).bind fun _ => (h.flowItems _).bind fun _ => pure_orderly _

theorem NodesOrderly.flowPairs_succ (h : NodesOrderly fuel) (first : Bool) :
    Orderly (Reading.flowPairs first (fuel + 1)) := by
  rw [Reading.flowPairs]
  refine next?_orderly.bind fun t => ?_
  split
  · exact skip_orderly.bind fun _ => pure_orderly _
  · refine Orderly.afterComma (next?_orderly.bind fun t => ?_) first
    split
    · exact skip_orderly.bind fun _ => (h.nodeUnless _ _ _).bind fun _ =>
        (h.valueUnless _ _ _).bind fun _ => (h.flowPairs _).bind fun _ => pure_orderly _
    · exact skip_orderly.bind fun _ => pure_orderly _
    · exact (h.node _ _).bind fun _ => (addNode_orderly _ _).bind fun _ =>
        (h.flowPairs _).bind fun _ => pure_orderly _

end

/-- The readers call each other with less fuel. -/
theorem nodesOrderly (fuel : Nat) : NodesOrderly fuel := by
  induction fuel with
  | zero =>
    constructor <;> intros <;> exact refuse_orderly
  | succ fuel ih =>
    exact ⟨ih.node_succ, ih.nodeUnless_succ, ih.valueUnless_succ, ih.blockItems_succ,
      ih.indentlessItems_succ, ih.blockPairs_succ, ih.flowItems_succ, ih.flowPairs_succ⟩

/-! ## Documents -/

theorem directives_orderly (versioned : Bool) (handles : Handles) (fuel : Nat) :
    Orderly (directives versioned handles fuel) := by
  induction fuel generalizing versioned handles with
  | zero => exact refuse_orderly
  | succ fuel ih =>
    rw [directives]
    refine next?_orderly.bind fun t => ?_
    split
    · refine skip_orderly.bind fun _ => ?_
      split
      · split
        · exact refuse_orderly
        · exact ih _ _
      · split
        · exact refuse_orderly
        · exact ih _ _
      · exact ih _ _
    · exact pure_orderly _

theorem documentStart_orderly (fuel : Nat) : Orderly (documentStart fuel) := by
  refine (directives_orderly _ _ _).bind fun _ => next?_orderly.bind fun t => ?_
  split
  · exact skip_orderly.bind fun _ => modify_orderly _
  · exact refuse_orderly

theorem documentEnd_orderly (fuel : Nat) : Orderly (documentEnd fuel) := by
  induction fuel with
  | zero => exact refuse_orderly
  | succ fuel ih =>
    rw [documentEnd]
    refine next?_orderly.bind fun t => ?_
    split
    · exact pure_orderly _
    · exact skip_orderly.bind fun _ => ih
    · exact (documentStart_orderly fuel).bind fun _ => refuse_orderly

theorem documentContent_orderly (fuel : Nat) : Orderly (documentContent fuel) := by
  refine next?_orderly.bind fun t => ?_
  split
  · exact addNode_orderly _ _
  · exact addNode_orderly _ _
  · exact addNode_orderly _ _
  · exact addNode_orderly _ _
  · exact (nodesOrderly fuel).node _ _

theorem document?_orderly (fuel : Nat) : Orderly (document? fuel) := by
  have hmarked : Orderly (do
      documentStart fuel
      let root ← documentContent fuel
      documentEnd fuel
      return some root) :=
    (documentStart_orderly fuel).bind fun _ => (documentContent_orderly fuel).bind fun _ =>
      (documentEnd_orderly fuel).bind fun _ => pure_orderly _
  refine next?_orderly.bind fun t => ?_
  split
  · exact pure_orderly _
  · exact hmarked
  · exact hmarked
  · exact ((nodesOrderly fuel).node _ _).bind fun _ => (documentEnd_orderly fuel).bind fun _ =>
      pure_orderly _

end Reading

/-- Whatever the text, reading its nodes fails, if at all, in one of four ways. -/
theorem readDocument_orderly (cs : List Char) : Orderly (readDocument cs) :=
  Ends.bind (Reading.document?_orderly _ _) fun _ _ => trivial

end Flowchart.Yaml

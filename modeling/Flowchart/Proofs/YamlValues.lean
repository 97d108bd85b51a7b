import Flowchart.Proofs.YamlReading
import Flowchart.Yaml.Load

/-!
# Faults of the values in a YAML document

The tag of a scalar promises a kind of value. Where every scalar keeps that
promise and no mapping stands for a scalar, the values of a document cannot
fail but as malformed: merging changes mappings, and the keys `=` become texts,
but neither breaks a promise. In a flat document the first scalar that breaks
its promise is the fault.
-/

namespace Flowchart.Yaml

open Flowchart.Text

/-! ## Sound nodes -/

/-- The tags of single texts. The key `=` may become a text, so that its tag is one of them. -/
def Tag.isScalar : Tag → Bool
  | .null | .bool | .int | .float | .str | .binary | .timestamp | .value => true
  | _ => false

/-- Whether a text has a value of the kind that its tag promises. -/
def Tag.fits : Tag → List CodePoint → Bool
  | .bool, text => (boolOfText text).isOk
  | .int, text => (intOfText text).isOk
  | .float, text => (floatOfText text).isOk
  | .timestamp, text => (timeOfText text).isOk
  | _, _ => true

/-- A scalar fits its tag, and a mapping does not stand for a scalar. -/
def Node.isSound (n : Node) : Bool :=
  match n.content with
  | .scalar text => n.tag.fits text
  | .sequence _ => true
  | .mapping _ => !n.tag.isScalar

namespace Graph

def isSound (g : Graph) : Bool := g.nodes.all Node.isSound

/-- Every number is that of a sound node. -/
def Sound (g : Graph) : Prop := ∀ n, (g.node n).isSound = true

theorem sound_of_isSound {g : Graph} (h : g.isSound = true) : g.Sound := by
  intro n
  rw [node, Array.getD_eq_getD_getElem?]
  cases hn : g.nodes[n]? with
  | none => rfl
  | some node =>
    obtain ⟨hlt, rfl⟩ := Array.getElem?_eq_some_iff.1 hn
    exact Array.all_eq_true.1 h n hlt

/-! ## Merging -/

theorem node_modify (g : Graph) (n m : Nat) (change : Node → Node) :
    (Graph.mk (g.nodes.modify n change)).node m =
      if n = m ∧ n < g.size then change (g.node m) else g.node m := by
  simp only [node, Array.getD_eq_getD_getElem?, Array.getElem?_modify, size]
  split
  · rename_i hnm
    subst hnm
    by_cases hlt : n < g.nodes.size
    · simp [hlt]
    · simp [hlt]
  · rename_i hnm
    rw [if_neg fun h => hnm h.1]

theorem content_setTag (g : Graph) (n m : Nat) (tag : Tag) :
    (g.setTag n tag).content m = g.content m := by
  rw [content, setTag, node_modify]
  split <;> rfl

theorem content_setContent (g : Graph) (n m : Nat) (c : Content) :
    (g.setContent n c).content m = if n = m ∧ n < g.size then c else g.content m := by
  rw [content, setContent, node_modify]
  split <;> rfl

/-- What merging leaves of a graph: its nodes are sound if they were, and the same of them are
mappings. -/
structure Kept (g g' : Graph) : Prop where
  sound : g.Sound → g'.Sound
  isMapping (n : Nat) : g'.isMapping n = g.isMapping n

section
variable {g g' g'' : Graph} {n : Nat}

theorem Kept.refl (g : Graph) : Kept g g := ⟨id, fun _ => rfl⟩

theorem Kept.trans (h : Kept g g') (h' : Kept g' g'') : Kept g g'' :=
  ⟨h'.sound ∘ h.sound, fun n => (h'.isMapping n).trans (h.isMapping n)⟩

theorem kept_setTag (h : g.tag n = .value) : Kept g (g.setTag n .str) where
  sound hg m := by
    rw [setTag, node_modify]
    split
    · rename_i hnm
      obtain ⟨rfl, -⟩ := hnm
      have hn := hg n
      unfold Node.isSound at hn ⊢
      dsimp only
      split at hn
      · rfl
      · rfl
      · rw [show (g.node n).tag = .value from h] at hn
        cases hn
    · exact hg m
  isMapping m := by rw [isMapping, content_setTag, isMapping]

theorem kept_setContent (h : g.isMapping n = true) (pairs : List (Nat × Nat)) :
    Kept g (g.setContent n (.mapping pairs)) where
  sound hg m := by
    rw [setContent, node_modify]
    split
    · rename_i hnm
      obtain ⟨rfl, -⟩ := hnm
      have hn := hg n
      unfold Node.isSound at hn ⊢
      unfold isMapping content at h
      dsimp only
      split at h
      · rename_i hc
        rw [hc] at hn
        exact hn
      · cases h
    · exact hg m
  isMapping m := by
    rw [isMapping, content_setContent]
    by_cases hnm : n = m ∧ n < g.size
    · rw [if_pos hnm, ← hnm.1, h]
    · rw [if_neg hnm, isMapping]

theorem kept_plainKeys (g : Graph) (pairs : List (Nat × Nat)) : Kept g (g.plainKeys pairs) := by
  unfold plainKeys
  induction pairs generalizing g with
  | nil => exact .refl g
  | cons p pairs ih =>
    rw [List.foldl_cons]
    refine Kept.trans ?_ (ih _)
    split
    · rename_i hvalue
      exact kept_setTag hvalue
    · exact .refl g

end

end Graph

/-- The computation ends well, or it finds the text malformed. -/
abbrev EndsOr {α : Type} (P : α → Prop) (x : Except Fault α) : Prop := Ends P (· = .malformed) x

/-- The computation fails, if at all, on a malformed text. -/
abbrev Proper {α : Type} (x : Except Fault α) : Prop := FailsIn (· = .malformed) x

theorem Proper.of_isOk {α : Type} {x : Except Fault α} (h : x.isOk = true) : Proper x := by
  cases x with
  | ok a => trivial
  | error f => cases h

theorem EndsOr.foldlM {α σ : Type} {P : σ → Prop} {step : σ → α → Except Fault σ} {s : σ}
    (hs : P s) (h : ∀ s a, P s → EndsOr P (step s a)) (as : List α) :
    EndsOr P (as.foldlM step s) := by
  induction as generalizing s with
  | nil => exact hs
  | cons a as ih =>
    rw [List.foldlM_cons]
    exact (h s a hs).bind fun s' hs' => ih hs'

namespace Graph

theorem mergeFrom_kept (fuel : Nat) {g : Graph} {n : Nat} (hn : g.isMapping n = true)
    (start : Nat) (merged : List (Nat × Nat)) :
    EndsOr (Kept g) (mergeFrom fuel g n start merged) := by
  induction fuel generalizing g n start merged with
  | zero => rfl
  | succ fuel ih =>
    -- what is merged into the mapping leaves it a mapping, and so the rest can be merged
    have hgo {g' : Graph} (hk : Kept g g') (i : Nat) (found : List (Nat × Nat)) :
        EndsOr (Kept g) (mergeFrom fuel g' n i found) := by
      have h := ih ((hk.isMapping n).trans hn) i found
      exact h.imp (fun _ hg => hk.trans hg) fun _ hf => hf
    rw [mergeFrom]
    dsimp only
    split
    · have hplain := kept_plainKeys g ((g.pairs n).drop start)
      split
      · exact hplain
      · exact hplain.trans (kept_setContent ((hplain.isMapping n).trans hn) _)
    · rename_i i _
      have hplain := kept_plainKeys g (((g.pairs n).take i).drop start)
      have hcut := hplain.trans
        (kept_setContent ((hplain.isMapping n).trans hn) ((g.pairs n).eraseIdx i))
      split
      · rename_i hsource
        refine (ih ?_ 0 []).bind fun g' hg' => hgo (hcut.trans hg') i _
        rw [isMapping, hsource]
      · refine Ends.bind (EndsOr.foldlM (P := fun state => Kept g state.2) hcut ?_ _)
          fun state hstate => hgo hstate i _
        intro state item hstate
        split
        · rename_i hitem
          exact (ih hitem 0 []).map fun g' hg' => hstate.trans hg'
        · rfl
      · rfl

theorem merge_kept {g : Graph} {n : Nat} (hn : g.isMapping n = true) :
    EndsOr (Kept g) (g.merge n) :=
  mergeFrom_kept _ hn 0 []

/-! ## Values -/

section
variable {g : Graph}

/-- A scalar tag stands at a scalar, whose text fits it, or the text is refused. -/
theorem Sound.text_ends (h : g.Sound) {n : Nat} (hs : (g.tag n).isScalar = true) :
    EndsOr (fun text => g.isMapping n = false ∧ (g.tag n).fits text = true) (g.text n) := by
  have hn := h n
  unfold Node.isSound at hn
  unfold text textWithin isMapping content
  split at hn
  · rename_i text hc
    rw [hc]
    exact ⟨rfl, hn⟩
  · rename_i hc
    rw [hc]
    rfl
  · rw [show (g.node n).tag.isScalar = true from hs] at hn
    cases hn

theorem bytesOfText_proper (text : List CodePoint) : Proper (bytesOfText text) := by
  unfold bytesOfText
  split
  · rfl
  · split
    · split
      · trivial
      · rfl
    · rfl

theorem Sound.construct_proper (h : g.Sound) (n : Nat) : Proper (g.construct n) := by
  have htext := h.text_ends (n := n)
  unfold construct
  cases ht : g.text n with
  | error f =>
    rw [ht] at htext
    dsimp only
    split <;> rename_i htag <;> rw [htag] at htext
    all_goals first | exact htext rfl | trivial
  | ok text =>
    -- the text fits the tag, and so it has a value of its kind
    rw [ht] at htext
    dsimp only
    split <;> rename_i htag <;> rw [htag] at htext
    · trivial
    · exact ((Proper.of_isOk (htext rfl).2).map _).map _
    · exact ((Proper.of_isOk (htext rfl).2).map _).map _
    · exact ((Proper.of_isOk (htext rfl).2).map _).map _
    · trivial
    · exact (bytesOfText_proper text).map _
    · rw [(htext rfl).1]
      exact (Proper.of_isOk (htext rfl).2).map _
    all_goals trivial

theorem Sound.constructAll_proper (h : g.Sound) (ns : List Nat) : Proper (g.constructAll ns) := by
  induction ns with
  | nil => trivial
  | cons n ns ih =>
    rw [constructAll]
    exact (h.construct_proper n).bind fun _ _ => ih.bind fun _ _ => trivial

theorem Sound.constructEntries_proper (h : g.Sound) (found : List (Key × Value))
    (pairs : List (Nat × Nat)) : Proper (g.constructEntries found pairs) := by
  induction pairs generalizing found with
  | nil => trivial
  | cons p pairs ih =>
    rw [constructEntries]
    refine (h.construct_proper p.1).bind fun key _ => ?_
    dsimp only
    split
    · rfl
    · exact (h.construct_proper p.2).bind fun _ _ => (ih _).bind fun _ _ => trivial

theorem Sound.singlePairs_proper (h : g.Sound) (ns : List Nat) : Proper (g.singlePairs ns) := by
  induction ns with
  | nil => trivial
  | cons n ns ih =>
    rw [singlePairs]
    split
    · rename_i k v _
      exact (h.construct_proper k).bind fun _ _ => (h.construct_proper v).bind fun _ _ =>
        ih.bind fun _ _ => trivial
    · rfl

/-- Filling leaves a sound graph. -/
theorem Sound.entries_ends (h : g.Sound) (n : Nat) :
    EndsOr (fun r => r.2.2.Sound) (g.entries n) := by
  unfold entries
  cases hm : g.isMapping n with
  | false => rfl
  | true =>
    refine Ends.bind (merge_kept hm) fun g' hk => ?_
    exact ((hk.sound h).constructEntries_proper [] _).bind fun _ _ => hk.sound h

theorem Sound.fill_ends (h : g.Sound) (n : Nat) : EndsOr (fun r => r.2.2.Sound) (g.fill n) := by
  unfold fill
  split
  · exact (h.constructAll_proper _).bind fun _ _ => h
  · exact (h.singlePairs_proper _).bind fun _ _ => h
  · exact (h.singlePairs_proper _).bind fun _ _ => h
  · exact (h.entries_ends n).bind fun _ hr => hr
  · exact (h.entries_ends n).bind fun _ hr => hr
  · rfl

theorem Sound.fillAll_proper (seen : List Nat) (fuel : Nat) (h : g.Sound) (ns : List Nat) :
    Proper (fillAll seen fuel g ns) := by
  induction fuel generalizing seen g ns with
  | zero => cases ns with
    | nil => trivial
    | cons n ns => rfl
  | succ fuel ih => cases ns with
    | nil => trivial
    | cons n ns =>
      rw [fillAll]
      exact (h.fill_ends n).bind fun r hr => ih _ hr _

theorem Sound.value_proper (h : g.Sound) (root : Nat) : Proper (g.value root) := by
  unfold value
  refine (h.construct_proper root).bind fun r _ => ?_
  dsimp only
  split
  · trivial
  · rename_i n _ _
    exact (h.fill_ends n).bind fun r hr =>
      (hr.fillAll_proper _ _ _).bind fun _ _ => trivial

end

end Graph

/-! ## Whole documents -/

/-- Reading finds no fault but in the grammar, and the nodes that are read are sound. -/
structure Regular (cs : List Char) : Prop where
  reads : ∀ f, readDocument cs = .error f → f = .malformed
  sound : ∀ root g, readDocument cs = .ok (some (root, g)) → g.isSound = true

theorem Regular.load_proper {cs : List Char} (h : Regular cs) : Proper (load cs) := by
  unfold load
  split
  · rfl
  · refine Ends.bind (P := fun r => readDocument cs = .ok r) ?_ fun r hr => ?_
    · cases hd : readDocument cs with
      | ok r => rfl
      | error f => exact h.reads f hd
    · match r with
      | none => trivial
      | some (root, g) => exact (Graph.sound_of_isSound (h.sound root g hr)).value_proper root

/-! ## Flat documents -/

/-- The text is not refused as malformed: it has a value, or a fault of its own. -/
abbrev Judged {α : Type} (x : Except Fault α) : Prop := FailsIn (· ≠ .malformed) x

theorem Judged.mapM {α β : Type} {read : α → Except Fault β} (h : ∀ a, Judged (read a))
    (as : List α) : Judged (as.mapM read) := by
  induction as with
  | nil => trivial
  | cons a as ih =>
    rw [List.mapM_cons]
    exact (h a).bind fun _ _ => ih.bind fun _ _ => trivial

theorem readChars_judged {α : Type} (read : String → Except Number.LiteralFault α)
    (fault : String → Number.LiteralFault) (ps : List CodePoint) :
    Judged (readChars read fault ps) := by
  unfold readChars
  split
  · rename_i cs _
    cases read (String.ofList cs) with
    | ok a => trivial
    | error f => exact Fault.noConfusion
  · exact Fault.noConfusion

theorem boolOfText_judged (text : List CodePoint) : Judged (boolOfText text) := by
  unfold boolOfText
  dsimp only
  split
  · trivial
  · split
    · trivial
    · exact Fault.noConfusion

theorem intOfText_judged (text : List CodePoint) : Judged (intOfText text) := by
  unfold intOfText
  dsimp only
  split
  · exact Fault.noConfusion
  · split
    · exact Fault.noConfusion
    · trivial
    · exact (readChars_judged ..).bind fun _ _ => trivial
    · exact (readChars_judged ..).bind fun _ _ => trivial
    · exact (readChars_judged ..).bind fun _ _ => trivial
    · split
      · exact ((Judged.mapM (fun _ => readChars_judged ..) _).map _).bind fun _ _ => trivial
      · exact (readChars_judged ..).bind fun _ _ => trivial

theorem sumSixtieths_judged (weight : Nat) (sum : Float) (ds : List Float) :
    Judged (sumSixtieths weight sum ds) := by
  induction ds generalizing weight sum with
  | nil => trivial
  | cons d ds ih =>
    rw [sumSixtieths]
    split
    · exact Fault.noConfusion
    · exact ih _ _

theorem floatOfText_judged (text : List CodePoint) : Judged (floatOfText text) := by
  unfold floatOfText
  dsimp only
  split
  · exact Fault.noConfusion
  · split
    · trivial
    · split
      · trivial
      · split
        · exact (Judged.mapM (fun _ => readChars_judged ..) _).bind fun _ _ =>
            (sumSixtieths_judged ..).bind fun _ _ => trivial
        · exact (readChars_judged ..).bind fun _ _ => trivial

theorem timeOfText_judged (text : List CodePoint) : Judged (timeOfText text) := by
  unfold timeOfText
  split
  · exact Fault.noConfusion
  · rename_i t _
    cases t.value with
    | ok v => trivial
    | error f => exact Fault.noConfusion

/-- The condition decides between a value in `P` and a fault of its own. -/
abbrev DecidedBy {α : Type} (c : Bool) (P : α → Prop) (x : Except Fault α) : Prop :=
  Ends (fun a => P a ∧ c = true) (fun f => f ≠ .malformed ∧ c = false) x

theorem Judged.decided {α β : Type} {x : Except Fault α} (h : Judged x) (g : α → β) :
    DecidedBy x.isOk (fun _ => True) (x.map g) := by
  cases x with
  | ok a => exact ⟨trivial, rfl⟩
  | error f => exact ⟨h, rfl⟩

/-- The tags that a scalar has by its spelling. -/
def Tag.isPlain : Tag → Bool
  | .null | .bool | .int | .float | .str | .timestamp => true
  | _ => false

def Node.isPlain (n : Node) : Bool :=
  match n.content with
  | .scalar _ => n.tag.isPlain
  | _ => false

namespace Graph

/-- The outermost node is a mapping from texts to plain scalars. -/
structure Flat (g : Graph) (root : Nat) : Prop where
  tag : g.tag root = .map
  mapping : g.isMapping root = true
  keys : ((g.pairs root).all fun p => g.tag p.1 == .str && (g.node p.1).isPlain) = true
  values : ((g.pairs root).all fun p => (g.node p.2).isPlain) = true

theorem Flat.key {g : Graph} {root : Nat} (h : g.Flat root) {p : Nat × Nat}
    (hp : p ∈ g.pairs root) : g.tag p.1 = .str ∧ (g.node p.1).isPlain = true := by
  have hkey := List.all_eq_true.1 h.keys p hp
  rw [Bool.and_eq_true] at hkey
  exact ⟨eq_of_beq hkey.1, hkey.2⟩

/-- Whether the values of pairs are sound. -/
def valuesFit (g : Graph) (pairs : List (Nat × Nat)) : Bool :=
  pairs.all fun p => (g.node p.2).isSound

section
variable {g : Graph} {n root : Nat} {pairs : List (Nat × Nat)}

/-- A plain scalar has a value exactly when it is sound. -/
theorem construct_plain (h : (g.node n).isPlain = true) :
    DecidedBy (g.node n).isSound (fun r => r.2 = []) (g.construct n) := by
  unfold Node.isPlain at h
  unfold construct Graph.text textWithin isMapping Graph.tag content Node.isSound
  cases hn : g.node n with | mk tag content =>
  rw [hn] at h
  cases content with
  | sequence items => cases h
  | mapping pairs => cases h
  | scalar text =>
    cases tag with
    | null | str => exact ⟨rfl, rfl⟩
    | bool => exact Ends.map ((boolOfText_judged text).decided _) fun _ h => ⟨rfl, h.2⟩
    | int => exact Ends.map ((intOfText_judged text).decided _) fun _ h => ⟨rfl, h.2⟩
    | float => exact Ends.map ((floatOfText_judged text).decided _) fun _ h => ⟨rfl, h.2⟩
    | timestamp =>
      have ht := (timeOfText_judged text).decided id
      rw [Except.map_id] at ht
      exact Ends.map ht fun _ h => ⟨rfl, h.2⟩
    | _ => cases h

theorem construct_text (ht : g.tag n = .str) (h : (g.node n).isPlain = true) :
    ∃ text, g.construct n = .ok (.str text, []) := by
  unfold Node.isPlain at h
  unfold construct Graph.text textWithin content
  cases hc : (g.node n).content with
  | scalar text => exact ⟨text, by rw [ht]; rfl⟩
  | sequence items => rw [hc] at h; cases h
  | mapping pairs => rw [hc] at h; cases h

theorem constructEntries_plain (found : List (Key × Value))
    (hkeys : ∀ p ∈ pairs, g.tag p.1 = .str ∧ (g.node p.1).isPlain = true)
    (hvalues : ∀ p ∈ pairs, (g.node p.2).isPlain = true) :
    DecidedBy (g.valuesFit pairs) (fun r => r.2 = []) (g.constructEntries found pairs) := by
  induction pairs generalizing found with
  | nil => exact ⟨rfl, rfl⟩
  | cons p pairs ih =>
    obtain ⟨hkey, hkeys⟩ := List.forall_mem_cons.1 hkeys
    obtain ⟨hvalue, hvalues⟩ := List.forall_mem_cons.1 hvalues
    obtain ⟨text, hc⟩ := construct_text hkey.1 hkey.2
    have hfit : g.valuesFit (p :: pairs) = ((g.node p.2).isSound && g.valuesFit pairs) := rfl
    rw [constructEntries, hc, hfit]
    show Ends _ _ (g.construct p.2 >>= _)
    refine Ends.bind ((construct_plain hvalue).imp (fun _ h => h) ?_) fun r hr => ?_
    · exact fun f hf => ⟨hf.1, by rw [hf.2]; rfl⟩
    refine Ends.bind ((ih _ hkeys hvalues).imp (fun _ h => h) ?_) fun s hs => ?_
    · exact fun f hf => ⟨hf.1, by rw [hf.2, Bool.and_false]⟩
    · exact ⟨by rw [hr.1, hs.1]; rfl, by rw [hr.2, hs.2]; rfl⟩

theorem mergePosition?_eq_none (h : ∀ p ∈ pairs, g.tag p.1 ≠ .merge) :
    g.mergePosition? 0 pairs = none := by
  simpa [mergePosition?, List.findIdx?_eq_none_iff] using h

theorem plainKeys_eq_self (h : ∀ p ∈ pairs, g.tag p.1 ≠ .value) : g.plainKeys pairs = g := by
  unfold plainKeys
  induction pairs with
  | nil => rfl
  | cons p pairs ih =>
    obtain ⟨hp, hps⟩ := List.forall_mem_cons.1 h
    rw [List.foldl_cons, if_neg hp, ih hps]

/-- A flat document needs no merging. -/
theorem Flat.merge_eq (h : g.Flat root) : g.merge root = .ok g := by
  have hkeys (tag : Tag) (htag : tag ≠ .str) : ∀ p ∈ g.pairs root, g.tag p.1 ≠ tag := by
    intro p hp he
    exact htag (he.symm.trans (h.key hp).1)
  rw [merge, mergeFrom]
  simp only [mergePosition?_eq_none (hkeys .merge (by decide)), List.drop_zero,
    plainKeys_eq_self (hkeys .value (by decide)), List.isEmpty_nil, if_true]

theorem Flat.fill_ends (h : g.Flat root) :
    DecidedBy (g.valuesFit (g.pairs root)) (fun r => r.2.1 = []) (g.fill root) := by
  have hentries :
      DecidedBy (g.valuesFit (g.pairs root)) (fun r => r.2.1 = []) (g.entries root) := by
    unfold entries
    rw [h.mapping, h.merge_eq]
    exact (constructEntries_plain [] (fun _ hp => h.key hp) (List.all_eq_true.1 h.values)).bind
      fun _ hr => hr
  unfold fill
  rw [h.tag]
  exact hentries.bind fun _ hr => hr

theorem fillAll_nil (seen : List Nat) (fuel : Nat) (g : Graph) :
    fillAll seen fuel g [] = .ok () := by
  cases fuel <;> rfl

/-- A flat document has a value exactly when its scalars are sound. -/
theorem Flat.value_ends (h : g.Flat root) :
    DecidedBy (g.valuesFit (g.pairs root)) (fun _ => True) (g.value root) := by
  have hc : g.construct root = .ok (.map [], [root]) := by
    unfold construct
    rw [h.tag]
  rw [value, hc]
  show Ends _ _ (g.fill root >>= _)
  refine h.fill_ends.bind fun r hr => ?_
  obtain ⟨v, later, g'⟩ := r
  obtain ⟨rfl, hfit⟩ := hr
  show Ends _ _ (fillAll [root] g'.size g' [] >>= _)
  rw [fillAll_nil]
  exact ⟨trivial, hfit⟩

end

end Graph

theorem load_flat {cs : List Char} {root : Nat} {g : Graph} (hcs : cs.all isAllowed = true)
    (hd : readDocument cs = .ok (some (root, g))) (h : g.Flat root) :
    DecidedBy (g.valuesFit (g.pairs root)) (fun _ => True) (load cs) := by
  unfold load
  rw [hcs, hd]
  exact h.value_ends

end Flowchart.Yaml

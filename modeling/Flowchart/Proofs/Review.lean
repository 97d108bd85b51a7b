import Flowchart.Proofs.LineOrder
import Flowchart.Review

/-!
# Reviewing statements

What the review says about a statement depends on the statements before it,
where its id may be declared, and on all statements, where the ends of a
relation may be declared. It collects the two kinds of warning separately and
sorts them by line. No two statements of a source share a line, so this puts
the warnings in the order of the statements.

The parser gives every statement the parameters that the stages behind it look
at, so neither the review nor the generation of flowchart lines fails.
-/

namespace Flowchart

/-! ## Sorting by a key -/

section
variable {α : Type} {key : α → Int}

/-- Two lists in the order of a key are equal if they have the same elements at each key, in the
same order. -/
theorem eq_of_filter_key {xs ys : List α} (hx : xs.Pairwise fun a b => key a ≤ key b)
    (hy : ys.Pairwise fun a b => key a ≤ key b)
    (h : ∀ k, xs.filter (key · == k) = ys.filter (key · == k)) : xs = ys := by
  -- a list begins with its smallest key
  have hle {a b : α} {as bs : List α} (hb : ∀ c ∈ bs, key b ≤ key c)
      (hab : (a :: as).filter (key · == key a) = (b :: bs).filter (key · == key a)) :
      key b ≤ key a := by
    have ha : a ∈ (b :: bs).filter (key · == key a) := by
      rw [← hab]
      simp
    rcases List.mem_cons.1 (List.mem_filter.1 ha).1 with rfl | ha
    · exact Int.le_refl _
    · exact hb a ha
  induction xs generalizing ys with
  | nil =>
    cases ys with
    | nil => rfl
    | cons y ys => simpa using h (key y)
  | cons x xs ih =>
    cases ys with
    | nil => simpa using h (key x)
    | cons y ys =>
      obtain ⟨hx, hxs⟩ := List.pairwise_cons.1 hx
      obtain ⟨hy, hys⟩ := List.pairwise_cons.1 hy
      have hkey : key y = key x := Int.le_antisymm (hle hy (h _)) (hle hx (h _).symm)
      have hhead := h (key x)
      rw [List.filter_cons_of_pos (by simp), List.filter_cons_of_pos (by simp [hkey])] at hhead
      obtain ⟨rfl, -⟩ := List.cons.inj hhead
      rw [ih hxs hys]
      intro k
      have hk := h k
      by_cases hx : key x = k
      · simpa [hx] using hk
      · simpa [hx] using hk

theorem pairwise_of_key_eq {xs : List α} {k : Int} (h : ∀ x ∈ xs, key x = k) :
    xs.Pairwise fun a b => key a ≤ key b := by
  refine List.pairwise_of_forall_mem_list fun a ha b hb => ?_
  exact Int.le_of_eq ((h a ha).trans (h b hb).symm)

theorem pairwise_mergeSort_key (xs : List α) :
    (xs.mergeSort fun a b => decide (key a ≤ key b)).Pairwise fun a b => key a ≤ key b := by
  have h : (xs.mergeSort fun a b => decide (key a ≤ key b)).Pairwise
      fun a b => decide (key a ≤ key b) = true :=
    List.pairwise_mergeSort (by simpa using fun a b c => Int.le_trans)
      (by simpa using fun a b => Int.le_total _ _) xs
  exact h.imp of_decide_eq_true

/-- Sorting is stable: it keeps the elements with one key in their order. -/
theorem filter_mergeSort_key (xs : List α) (k : Int) :
    (xs.mergeSort fun a b => decide (key a ≤ key b)).filter (key · == k) =
      xs.filter (key · == k) := by
  have hkeys : (xs.filter (key · == k)).Pairwise fun a b => decide (key a ≤ key b) = true :=
    (pairwise_of_key_eq (k := k) (by simp)).imp decide_eq_true
  have hsub := List.sublist_mergeSort (by simpa using fun a b c => Int.le_trans)
    (by simpa using fun a b => Int.le_total _ _) hkeys List.filter_sublist
  have hsub := hsub.filter (key · == k)
  simp only [List.filter_filter, Bool.and_self] at hsub
  exact (hsub.eq_of_length ((List.mergeSort_perm xs _).filter _).length_eq.symm).symm

end

/-! ## Warnings, statement by statement -/

namespace Statement

/-- The id that a statement declares. -/
def declared? (s : Statement) : Option String := if s.isNode then s.param? 0 else none

/-- The ids that a relation refers to: its source, then its target. -/
def ends (s : Statement) : List String :=
  if s.head = .call .rel then (s.param? 0).toList ++ (s.param? 2).toList else []

end Statement

/-- The ids that statements declare, in order. -/
def declarations (ss : List Statement) : List String := ss.filterMap Statement.declared?

/-- The line on which an id is declared first. -/
def declaredOn? (ss : List Statement) (id : String) : Option Int :=
  (ss.find? fun s => s.declared? == some id).map (·.line)

namespace Statement

/-- The warning on a declaration, if the id is declared before. -/
def repeats (before : List Statement) (s : Statement) : List Warning :=
  s.declared?.toList.flatMap fun id => (declaredOn? before id).toList.map (.repeated s.line id)

/-- The warnings on the ends of a relation that are not declared. -/
def looseEnds (declared : List String) (s : Statement) : List Warning :=
  (s.ends.filter (!declared.contains ·)).map (.undeclared s.line)

/-- The warnings on one of the statements `all`, given the ones before it. -/
def warnings (before all : List Statement) (s : Statement) : List Warning :=
  s.repeats before ++ s.looseEnds (declarations all)

/-- The statement has the parameters that the review looks at. -/
structure Reviewable (s : Statement) : Prop where
  node : s.isNode = true → ∃ id, s.param? 0 = some id
  rel : s.head = .call .rel → ∃ source target, s.param? 0 = some source ∧ s.param? 2 = some target

variable {s : Statement}

theorem line_of_mem_repeats {before : List Statement} {w : Warning} (h : w ∈ s.repeats before) :
    w.line = s.line := by
  obtain ⟨id, -, h⟩ := List.mem_flatMap.1 h
  obtain ⟨first, -, rfl⟩ := List.mem_map.1 h
  rfl

theorem line_of_mem_looseEnds {declared : List String} {w : Warning}
    (h : w ∈ s.looseEnds declared) : w.line = s.line := by
  obtain ⟨id, -, rfl⟩ := List.mem_map.1 h
  rfl

theorem declared?_of_node {id : String} (hn : s.isNode = true) (hp : s.param? 0 = some id) :
    s.declared? = some id := by
  rw [declared?, if_pos hn, hp]

theorem declared?_of_not_node (hn : ¬s.isNode = true) : s.declared? = none := if_neg hn

end Statement

section
variable {s : Statement} {ss before : List Statement} {seen : List (String × Int)}

theorem declarations_cons (s : Statement) (ss : List Statement) :
    declarations (s :: ss) = s.declared?.toList ++ declarations ss := by
  cases h : s.declared? <;> simp [declarations, h]

theorem declarations_concat (ss : List Statement) (s : Statement) :
    declarations (ss ++ [s]) = declarations ss ++ s.declared?.toList := by
  rw [declarations, List.filterMap_append, ← declarations, ← declarations, declarations_cons]
  exact congrArg _ (List.append_nil _)

theorem declaredOn?_append (before ss : List Statement) (id : String) :
    declaredOn? (before ++ ss) id = (declaredOn? before id).or (declaredOn? ss id) := by
  rw [declaredOn?, List.find?_append]
  cases h : before.find? fun s => s.declared? == some id <;> simp [declaredOn?, h]

theorem declaredOn?_singleton (s : Statement) (id : String) :
    declaredOn? [s] id = if s.declared? = some id then some s.line else none := by
  by_cases h : s.declared? = some id <;> simp [declaredOn?, h]

theorem declaredOn?_eq_none_iff {id : String} :
    declaredOn? ss id = none ↔ id ∉ declarations ss := by
  simp [declaredOn?, declarations]

/-- The ids seen are those declared before, with the lines on which they are declared first. -/
def Saw (seen : List (String × Int)) (before : List Statement) : Prop :=
  ∀ id, seen.lookup id = declaredOn? before id

theorem Saw.step_other (h : Saw seen before) (hs : s.declared? = none) :
    Saw seen (before ++ [s]) := by
  intro id
  rw [declaredOn?_append, declaredOn?_singleton, hs, h id]
  simp

theorem Saw.step_again (h : Saw seen before) {id : String} {first : Int}
    (hs : s.declared? = some id) (hid : seen.lookup id = some first) :
    Saw seen (before ++ [s]) := by
  intro x
  rw [declaredOn?_append, declaredOn?_singleton, hs, ← h x]
  by_cases hx : id = x
  · rw [← hx, hid]
    rfl
  · simp [hx]

theorem Saw.step_new (h : Saw seen before) {id : String} (hs : s.declared? = some id)
    (hid : seen.lookup id = none) : Saw ((id, s.line) :: seen) (before ++ [s]) := by
  intro x
  rw [declaredOn?_append, declaredOn?_singleton, hs, ← h x, List.lookup_cons]
  by_cases hx : x = id
  · subst hx
    simp [hid]
  · simp [beq_eq_false_iff_ne.2 hx, Ne.symm hx]

/-- One step warns about the statement if its id is seen, and sees its id. -/
theorem Saw.step (h : Saw seen before) (hs : s.Reviewable) :
    ∃ seen', Saw seen' (before ++ [s]) ∧ ∀ ss ws, repeatedFrom seen' ss = .ok ws →
      repeatedFrom seen (s :: ss) = .ok (s.repeats before ++ ws) := by
  by_cases hn : s.isNode = true
  · obtain ⟨id, hid⟩ := hs.node hn
    have hdecl := Statement.declared?_of_node hn hid
    have hneed : s.need 0 = .ok id := by simp [Statement.need, hid]
    cases hlook : seen.lookup id with
    | some first =>
      have hrep : s.repeats before = [.repeated s.line id first] := by
        simp [Statement.repeats, hdecl, ← h id, hlook]
      refine ⟨seen, h.step_again hdecl hlook, fun ss ws hws => ?_⟩
      rw [repeatedFrom, if_pos hn, hneed, hrep]
      simp only [bind, Except.bind, hlook, hws]
      rfl
    | none =>
      have hrep : s.repeats before = [] := by
        simp [Statement.repeats, hdecl, ← h id, hlook]
      refine ⟨_, h.step_new hdecl hlook, fun ss ws hws => ?_⟩
      rw [repeatedFrom, if_pos hn, hneed, hrep]
      simp only [bind, Except.bind, hlook, hws]
      rfl
  · have hdecl := Statement.declared?_of_not_node hn
    have hrep : s.repeats before = [] := by simp [Statement.repeats, hdecl]
    refine ⟨seen, h.step_other hdecl, fun ss ws hws => ?_⟩
    rw [repeatedFrom, if_neg hn, hws, hrep]
    rfl

/-- The first statement stands before those that follow it. -/
theorem mapIdx_repeats_cons (before : List Statement) (s : Statement) (ss : List Statement) :
    ((s :: ss).mapIdx fun i u => u.repeats (before ++ (s :: ss).take i)) =
      s.repeats before :: ss.mapIdx fun i u => u.repeats (before ++ [s] ++ ss.take i) := by
  simp [List.mapIdx_cons]

/-- The repeated declarations are those on each statement, given the ones before it. -/
theorem repeatedFrom_eq (hseen : Saw seen before) (h : ∀ s ∈ ss, s.Reviewable) :
    repeatedFrom seen ss = .ok (ss.mapIdx fun i s => s.repeats (before ++ ss.take i)).flatten := by
  induction ss generalizing seen before with
  | nil => rfl
  | cons s ss ih =>
    obtain ⟨hs, hss⟩ := List.forall_mem_cons.1 h
    obtain ⟨seen', hseen', hstep⟩ := hseen.step hs
    rw [hstep ss _ (ih hseen' hss), mapIdx_repeats_cons, List.flatten_cons]

theorem declaredIds_eq (h : ∀ s ∈ ss, s.Reviewable) : declaredIds ss = .ok (declarations ss) := by
  induction ss with
  | nil => rfl
  | cons s ss ih =>
    obtain ⟨hs, hss⟩ := List.forall_mem_cons.1 h
    rw [declarations_cons]
    by_cases hn : s.isNode = true
    · obtain ⟨id, hid⟩ := hs.node hn
      simp [declaredIds, hn, Statement.need, hid, ih hss, Statement.declared?_of_node hn hid, bind,
        Except.bind, pure, Except.pure]
    · rw [declaredIds, if_neg hn, ih hss, Statement.declared?_of_not_node hn]
      rfl

theorem undeclaredEnds_eq (declared : List String) (h : ∀ s ∈ ss, s.Reviewable) :
    undeclaredEnds declared ss = .ok (ss.mapIdx fun _ s => s.looseEnds declared).flatten := by
  induction ss with
  | nil => rfl
  | cons s ss ih =>
    obtain ⟨hs, hss⟩ := List.forall_mem_cons.1 h
    rw [List.mapIdx_cons, List.flatten_cons]
    by_cases hr : s.head = .call .rel
    · obtain ⟨source, target, hsource, htarget⟩ := hs.rel hr
      have hends : s.ends = [source, target] := by simp [Statement.ends, hr, hsource, htarget]
      rw [Statement.looseEnds, hends]
      simp [undeclaredEnds, hr, Statement.need, hsource, htarget, ih hss, bind, Except.bind, pure,
        Except.pure]
    · have hends : s.ends = [] := if_neg hr
      rw [undeclaredEnds, if_neg hr, ih hss, Statement.looseEnds, hends]
      rfl

/-- The warnings before they are put in order. -/
theorem review_eq (h : ∀ s ∈ ss, s.Reviewable) :
    review ss = .ok (((ss.mapIdx fun i s => s.repeats (ss.take i)).flatten ++
      (ss.mapIdx fun _ s => s.looseEnds (declarations ss)).flatten).mergeSort
        fun a b => decide (a.line ≤ b.line)) := by
  have hrepeated : repeatedFrom [] ss =
      .ok (ss.mapIdx fun i s => s.repeats ([] ++ ss.take i)).flatten :=
    repeatedFrom_eq (fun _ => rfl) h
  simp only [List.nil_append] at hrepeated
  rw [review, hrepeated, declaredIds_eq h]
  simp only [bind, Except.bind, undeclaredEnds_eq _ h]
  rfl

end

/-! ## Warnings in the order of the statements -/

section
variable {ss : List Statement} {f g : Nat → Statement → List Warning}

theorem blocks_eq_nil_iff :
    (ss.mapIdx f).flatten = [] ↔ ∀ (i : Nat) (h : i < ss.length), f i ss[i] = [] := by
  rw [List.flatten_eq_nil_iff]
  constructor
  · intro h i hi
    exact h _ (List.mem_mapIdx.2 ⟨i, hi, rfl⟩)
  · intro h block hblock
    obtain ⟨i, hi, rfl⟩ := List.mem_mapIdx.1 hblock
    exact h i hi

theorem exists_line_of_mem_blocks (hf : ∀ i s, ∀ w ∈ f i s, w.line = s.line) {w : Warning}
    (h : w ∈ (ss.mapIdx f).flatten) : ∃ s ∈ ss, w.line = s.line := by
  obtain ⟨block, hblock, hw⟩ := List.mem_flatten.1 h
  obtain ⟨i, hi, rfl⟩ := List.mem_mapIdx.1 hblock
  exact ⟨ss[i], List.getElem_mem hi, hf i _ w hw⟩

theorem pairwise_blocks (hf : ∀ i s, ∀ w ∈ f i s, w.line = s.line)
    (hss : ss.Pairwise fun s s' => s.line < s'.line) :
    (ss.mapIdx f).flatten.Pairwise fun a b => a.line ≤ b.line := by
  induction ss generalizing f with
  | nil => exact .nil
  | cons s ss ih =>
    obtain ⟨hs, hss⟩ := List.pairwise_cons.1 hss
    rw [List.mapIdx_cons, List.flatten_cons]
    refine List.pairwise_append.2 ⟨pairwise_of_key_eq (hf 0 s), ih (fun i => hf (i + 1)) hss, ?_⟩
    intro a ha b hb
    obtain ⟨s', hs', hline⟩ := exists_line_of_mem_blocks (fun i => hf (i + 1)) hb
    rw [hf 0 s a ha, hline]
    exact Int.le_of_lt (hs s' hs')

theorem filter_blocks_eq_nil (hf : ∀ i s, ∀ w ∈ f i s, w.line = s.line) {k : Int}
    (h : ∀ s ∈ ss, s.line ≠ k) : (ss.mapIdx f).flatten.filter (·.line == k) = [] := by
  refine List.filter_eq_nil_iff.2 fun w hw => ?_
  obtain ⟨s, hs, hline⟩ := exists_line_of_mem_blocks hf hw
  simpa [hline] using h s hs

/-- Only one statement has warnings on a line, so there it does not matter whether two kinds of
warning are collected together or one after the other. -/
theorem filter_blocks_append (hf : ∀ i s, ∀ w ∈ f i s, w.line = s.line)
    (hg : ∀ i s, ∀ w ∈ g i s, w.line = s.line) (hss : ss.Pairwise fun s s' => s.line < s'.line)
    (k : Int) :
    ((ss.mapIdx f).flatten ++ (ss.mapIdx g).flatten).filter (·.line == k) =
      (ss.mapIdx fun i s => f i s ++ g i s).flatten.filter (·.line == k) := by
  induction ss generalizing f g with
  | nil => rfl
  | cons s ss ih =>
    obtain ⟨hs, hss⟩ := List.pairwise_cons.1 hss
    have hrest := ih (fun i => hf (i + 1)) (fun i => hg (i + 1)) hss
    simp only [List.filter_append] at hrest
    simp only [List.mapIdx_cons, List.flatten_cons, List.filter_append, List.append_assoc]
    by_cases hk : s.line = k
    · have hlater : ∀ s' ∈ ss, s'.line ≠ k := by
        intro s' hs' heq
        have := hs s' hs'
        omega
      have hf' := filter_blocks_eq_nil (fun i => hf (i + 1)) hlater
      have hg' := filter_blocks_eq_nil (fun i => hg (i + 1)) hlater
      rw [hf', hg'] at hrest ⊢
      rw [← hrest]
      rfl
    · have hnone {block : List Warning} (h : ∀ w ∈ block, w.line = s.line) :
          block.filter (·.line == k) = [] := by
        refine List.filter_eq_nil_iff.2 fun w hw => ?_
        simpa [h w hw] using hk
      rw [hnone (hf 0 s), hnone (hg 0 s), ← hrest]
      rfl

theorem mergeSort_blocks (hf : ∀ i s, ∀ w ∈ f i s, w.line = s.line)
    (hg : ∀ i s, ∀ w ∈ g i s, w.line = s.line) (hss : ss.Pairwise fun s s' => s.line < s'.line) :
    ((ss.mapIdx f).flatten ++ (ss.mapIdx g).flatten).mergeSort
        (fun a b => decide (a.line ≤ b.line)) =
      (ss.mapIdx fun i s => f i s ++ g i s).flatten := by
  have hfg : ∀ i s, ∀ w ∈ f i s ++ g i s, w.line = s.line := fun i s =>
    List.forall_mem_append.2 ⟨hf i s, hg i s⟩
  refine eq_of_filter_key (pairwise_mergeSort_key _) (pairwise_blocks hfg hss) fun k => ?_
  rw [filter_mergeSort_key, filter_blocks_append hf hg hss]

/-- Statements on ascending lines are reviewed one after the other. -/
theorem review_of_ascending (h : ∀ s ∈ ss, s.Reviewable)
    (hss : ss.Pairwise fun s s' => s.line < s'.line) :
    review ss = .ok (ss.mapIdx fun i s => s.warnings (ss.take i) ss).flatten := by
  rw [review_eq h, mergeSort_blocks (fun _ _ _ => Statement.line_of_mem_repeats)
    (fun _ _ _ => Statement.line_of_mem_looseEnds) hss]
  rfl

end

/-! ## Diagrams without warnings -/

section
variable {s : Statement} {ss before : List Statement}

theorem Statement.repeats_eq_nil_iff :
    s.repeats before = [] ↔ ∀ id ∈ s.declared?.toList, id ∉ declarations before := by
  simp [repeats, declaredOn?_eq_none_iff]

theorem Statement.looseEnds_eq_nil_iff {declared : List String} :
    s.looseEnds declared = [] ↔ ∀ id ∈ s.ends, id ∈ declared := by
  simp [looseEnds]

/-- No declaration is repeated if the ids are distinct, also from those declared before. -/
theorem repeats_eq_nil_iff (before ss : List Statement) :
    (ss.mapIdx fun i s => s.repeats (before ++ ss.take i)).flatten = [] ↔
      (declarations ss).Nodup ∧ ∀ id ∈ declarations ss, id ∉ declarations before := by
  induction ss generalizing before with
  | nil => simp [declarations]
  | cons s ss ih =>
    rw [mapIdx_repeats_cons, List.flatten_cons, List.append_eq_nil_iff,
      Statement.repeats_eq_nil_iff, ih, declarations_concat, declarations_cons]
    cases s.declared? with
    | none => simp
    | some id =>
      simp only [Option.toList_some, List.singleton_append, List.nodup_cons, List.mem_cons,
        forall_eq_or_imp, List.mem_append, not_or]
      grind

theorem warnings_eq_nil_iff (ss : List Statement) :
    (ss.mapIdx fun i s => s.warnings (ss.take i) ss).flatten = [] ↔
      (declarations ss).Nodup ∧ ∀ s ∈ ss, ∀ id ∈ s.ends, id ∈ declarations ss := by
  have hrepeats := repeats_eq_nil_iff [] ss
  have hends := List.forall_mem_iff_forall_getElem (l := ss)
    (P := fun s => s.looseEnds (declarations ss) = [])
  have hnone : declarations [] = [] := rfl
  simp only [List.nil_append, blocks_eq_nil_iff, hnone, List.not_mem_nil, not_false_eq_true,
    implies_true, and_true] at hrepeats
  simp only [← Statement.looseEnds_eq_nil_iff]
  rw [blocks_eq_nil_iff, hends, ← hrepeats]
  simp only [Statement.warnings, List.append_eq_nil_iff, forall_and]

end

/-! ## Statements of the parser -/

/-- The signature of a call asks for the parameters that the review looks at. -/
theorem Call.reviewable (c : Call) : c.statement.Reviewable := by
  have hlen : c.params.length = c.head.signature.length := by
    rw [← c.params_kinds, List.length_map]
  have hparam (i : Nat) (hi : i < c.params.length) : ∃ v, c.statement.param? i = some v :=
    ⟨c.params[i].value, by simp [Statement.param?, Call.statement, hi]⟩
  constructor
  · intro hn
    refine hparam 0 ?_
    cases hh : c.head <;> simp [hlen, hh, CallName.signature]
  · intro hr
    have hh : c.head = .rel := by simpa [Call.statement] using hr
    have hthree : c.params.length = 3 := by rw [hlen, hh]; rfl
    obtain ⟨source, hsource⟩ := hparam 0 (by omega)
    obtain ⟨target, htarget⟩ := hparam 2 (by omega)
    exact ⟨source, target, hsource, htarget⟩

theorem reviewable_of_parse {ts : List Token} {ss : List Statement} (h : parse ts = .ok ss) :
    ∀ s ∈ ss, s.Reviewable := by
  obtain ⟨d, -, rfl⟩ := Sentence.exists_of_parse h
  exact List.forall_mem_map.2 fun c _ => c.1.reviewable

/-- The stages behind the parser do not fail. Every statement that it gives has one flowchart line,
which shows its parameters, and can be reviewed; so what keeps a source from being compiled is a
diagnostic of the scanner or of the parser. -/
theorem stages_after_parsing_succeed :
    (∀ (ts : List Token) (ss : List Statement), parse ts = .ok ss →
      (∃ ls, generate ss = .ok ls ∧ ls.length = ss.length ∧ List.Forall₂ Statement.Draws ss ls) ∧
      ∃ ws, review ss = .ok ws) ∧
    ∀ (ls : List SourceLine) (f : CompileFault), transpile ls = .error f →
      ∃ d, f = .diagnostic d ∧
        (tokenizeLines ls = .error d ∧ d.cause.stage = .scanning ∨
          ∃ ts, tokenizeLines ls = .ok ts ∧ parse ts = .error d ∧ d.cause.stage = .parsing) := by
  refine ⟨fun ts ss h => ⟨?_, _, review_eq (reviewable_of_parse h)⟩, fun ls f h => ?_⟩
  · obtain ⟨ls, hls⟩ := draws_of_parse h
    exact ⟨ls, generate_of_draws hls, hls.length_eq.symm, hls⟩
  · cases hp : parseLines ls with
    | ok ss =>
      obtain ⟨out, hout⟩ := draws_of_parseLines hp
      rw [transpile_of_draws hp hout] at h
      cases h
    | error d =>
      obtain rfl : f = .diagnostic d := by simpa [transpile, hp] using h.symm
      refine ⟨d, rfl, ?_⟩
      cases ht : tokenizeLines ls with
      | error e =>
        rw [parseLines_of_fault ht] at hp
        cases hp
        exact .inl ⟨rfl, stage_of_tokenizeLines ht⟩
      | ok ts =>
        rw [parseLines_of_tokens ht] at hp
        exact .inr ⟨ts, rfl, hp, stage_of_parse hp⟩

/-- A stream with stray tokens, and a text that fails to scan. -/
theorem stages_after_parsing_succeed_with_strays :
    let ts : List Token := [⟨.quote, "?", 4⟩, ⟨.identifier, "Queue", 3⟩, ⟨.openParen, "", 3⟩,
      ⟨.identifier, "", 9⟩, ⟨.string, "\"", 1⟩, ⟨.closeParen, "x", 0⟩, ⟨.number, "1", 7⟩]
    let ls := sourceLines "Entity(a, \"A\")\n#"
    parse ts = .ok [⟨.call .queue, 3, [⟨.identifier, "", 9⟩, ⟨.string, "\"", 1⟩]⟩] ∧
    (∃ out, generate [⟨.call .queue, 3, [⟨.identifier, "", 9⟩, ⟨.string, "\"", 1⟩]⟩] = .ok out ∧
      out.length = 1) ∧
    transpile ls = .error (.diagnostic ⟨2, .strayCharacter (some '#')⟩) ∧
    ∃ d, CompileFault.diagnostic ⟨2, .strayCharacter (some '#')⟩ = .diagnostic d ∧
      (tokenizeLines ls = .error d ∧ d.cause.stage = .scanning ∨
        ∃ us, tokenizeLines ls = .ok us ∧ parse us = .error d ∧ d.cause.stage = .parsing) := by
  intro ts ls
  have hts : parse ts = .ok [⟨.call .queue, 3, [⟨.identifier, "", 9⟩, ⟨.string, "\"", 1⟩]⟩] := by
    decide +kernel
  have hls : transpile ls = .error (.diagnostic ⟨2, .strayCharacter (some '#')⟩) := by
    decide +kernel
  obtain ⟨⟨out, hout, hlen, -⟩, -⟩ := stages_after_parsing_succeed.1 _ _ hts
  exact ⟨hts, ⟨out, hout, hlen⟩, hls, stages_after_parsing_succeed.2 _ _ hls⟩

theorem reviewable_of_parseLines {ls : List SourceLine} {ss : List Statement}
    (h : parseLines ls = .ok ss) : ∀ s ∈ ss, s.Reviewable := by
  obtain ⟨ts, -, hts⟩ := exists_tokens_of_parseLines h
  exact reviewable_of_parse hts

/-- The warnings on a source come statement by statement: on a declaration whose id is declared
before, with the line of the first one, and on the ends of a relation that are declared nowhere. So
there are none if and only if no id is declared twice and every end is declared somewhere. -/
theorem warnings_in_statement_order (text : String) (ss : List Statement)
    (h : parseLines (sourceLines text) = .ok ss) :
    review ss = .ok (ss.mapIdx fun i s => s.warnings (ss.take i) ss).flatten ∧
    (review ss = .ok [] ↔
      (declarations ss).Nodup ∧ ∀ s ∈ ss, ∀ id ∈ s.ends, id ∈ declarations ss) := by
  have hreview := review_of_ascending (reviewable_of_parseLines h)
    (statements_ascend_of_parseLines (ascending_sourceLines text) h)
  refine ⟨hreview, ?_⟩
  rw [hreview, Except.ok.injEq]
  exact warnings_eq_nil_iff ss

/-- The third declaration of an id cites the line of the first one, and a relation that comes
before the declaration of its end is not warned about. -/
theorem warnings_in_statement_order_declared_late :
    let text :=
      "Rel(a \"x\" b)\nEntity(a \"A\")\n\nQueue(a\n\"B\")\nRel(c \"y\" c)\nEntity(a \"C\")"
    ∃ ss, parseLines (sourceLines text) = .ok ss ∧
      review ss = .ok [.undeclared 1 "b", .repeated 4 "a" 2, .undeclared 6 "c", .undeclared 6 "c",
        .repeated 7 "a" 2] ∧
      ¬(declarations ss).Nodup := by
  intro text
  have h : parseLines (sourceLines text) =
      .ok [⟨.call .rel, 1, [⟨.identifier, "a", 1⟩, ⟨.string, "x", 1⟩, ⟨.identifier, "b", 1⟩]⟩,
        ⟨.call .entity, 2, [⟨.identifier, "a", 2⟩, ⟨.string, "A", 2⟩]⟩,
        ⟨.call .queue, 4, [⟨.identifier, "a", 4⟩, ⟨.string, "B", 5⟩]⟩,
        ⟨.call .rel, 6, [⟨.identifier, "c", 6⟩, ⟨.string, "y", 6⟩, ⟨.identifier, "c", 6⟩]⟩,
        ⟨.call .entity, 7, [⟨.identifier, "a", 7⟩, ⟨.string, "C", 7⟩]⟩] := by
    decide +kernel
  refine ⟨_, h, ?_, by decide⟩
  rw [(warnings_in_statement_order text _ h).1]
  rfl

/-- What a user reads about one of the statements `all`, given the ones before it. -/
def Statement.messages (before all : List Statement) (s : Statement) : List String :=
  (s.declared?.toList.flatMap fun id => (declaredOn? before id).toList.map fun first =>
    "Line " ++ toString s.line ++ ": node '" ++ id ++ "' is already declared on line " ++
      toString first) ++
  (s.ends.filter (!(declarations all).contains ·)).map fun id =>
    "Line " ++ toString s.line ++ ": relation refers to undeclared node '" ++ id ++ "'"

theorem Statement.messages_eq (before all : List Statement) (s : Statement) :
    s.messages before all = (s.warnings before all).map Warning.message := by
  simp only [messages, warnings, repeats, looseEnds, List.map_append, List.map_flatMap,
    List.map_map]
  rfl

/-- The messages on a source come statement by statement, in these words. -/
theorem messages_in_statement_order (text : String) (ss : List Statement)
    (h : parseLines (sourceLines text) = .ok ss) :
    (review ss).map (List.map Warning.message) =
      .ok (ss.mapIdx fun i s => s.messages (ss.take i) ss).flatten := by
  have hreview := review_of_ascending (reviewable_of_parseLines h)
    (statements_ascend_of_parseLines (ascending_sourceLines text) h)
  rw [hreview, Except.map, List.map_flatten]
  simp only [Statement.messages_eq, List.mapIdx_eq_zipIdx_map, List.map_map]
  rfl

end Flowchart

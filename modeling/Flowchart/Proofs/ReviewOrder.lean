import Flowchart.Proofs.Review
import Mathlib.Data.Finset.Card

/-!
# Reviews and the order of statements

The review takes any statements, on any lines. It needs the parameters that it
looks at, and no more. In another order of the statements another declaration
of an id is the first one, so the warnings on repeated declarations change;
how many there are does not, because each id has one declaration that is not
warned about.
-/

namespace Flowchart

/-! ## Statements that cannot be reviewed -/

/-- The statement lacks a parameter that the review looks at. -/
def Statement.Lacking (s : Statement) : Prop :=
  s.isNode = true ∧ s.params = [] ∨ s.head = .call .rel ∧ s.params.length < 3

section
variable {s : Statement} {ss : List Statement}

theorem Statement.exists_param?_iff {i : Nat} :
    (∃ v, s.param? i = some v) ↔ i < s.params.length := by
  rw [param?, ← Option.isSome_iff_exists, Option.isSome_map]
  simp

theorem Statement.reviewable_iff : s.Reviewable ↔ ¬s.Lacking := by
  constructor
  · rintro ⟨hnode, hrel⟩ (⟨hn, hp⟩ | ⟨hr, hlen⟩)
    · have hlt := exists_param?_iff.1 (hnode hn)
      rw [hp] at hlt
      cases hlt
    · obtain ⟨_, target, -, htarget⟩ := hrel hr
      have hlt := exists_param?_iff.1 ⟨target, htarget⟩
      omega
  · intro h
    constructor
    · intro hn
      refine exists_param?_iff.2 (List.length_pos_iff.2 fun hp => h (.inl ⟨hn, hp⟩))
    · intro hr
      have hlen : 3 ≤ s.params.length := Nat.le_of_not_lt fun hlt => h (.inr ⟨hr, hlt⟩)
      obtain ⟨source, hsource⟩ := exists_param?_iff.2 (show 0 < s.params.length by omega)
      obtain ⟨target, htarget⟩ := exists_param?_iff.2 (show 2 < s.params.length by omega)
      exact ⟨source, target, hsource, htarget⟩

theorem Statement.need_eq_ok {i : Nat} {v : String} (h : s.need i = .ok v) :
    s.param? i = some v := by
  unfold need at h
  split at h
  · rename_i hv
    rw [hv, Except.ok.inj h]
  · cases h

/-- The search for repeated declarations needs the id of every node. -/
theorem exists_id_of_repeatedFrom {seen : List (String × Int)} {ws : List Warning}
    (h : repeatedFrom seen ss = .ok ws) :
    ∀ s ∈ ss, s.isNode = true → ∃ id, s.param? 0 = some id := by
  induction ss generalizing seen ws with
  | nil => simp
  | cons s ss ih =>
    rw [repeatedFrom] at h
    by_cases hn : s.isNode = true
    · rw [if_pos hn] at h
      cases hid : s.need 0 with
      | error e => rw [hid] at h; cases h
      | ok id =>
        rw [hid] at h
        have htail : ∃ seen' ws', repeatedFrom seen' ss = .ok ws' := by
          simp only [bind, Except.bind] at h
          split at h
          · cases hrest : repeatedFrom seen ss with
            | error e => rw [hrest] at h; cases h
            | ok ws' => exact ⟨seen, ws', hrest⟩
          · exact ⟨_, ws, h⟩
        obtain ⟨seen', ws', hrest⟩ := htail
        exact List.forall_mem_cons.2 ⟨fun _ => ⟨id, Statement.need_eq_ok hid⟩, ih hrest⟩
    · rw [if_neg hn] at h
      exact List.forall_mem_cons.2 ⟨fun hs => absurd hs hn, ih h⟩

/-- The search for undeclared ends needs both ends of every relation. -/
theorem exists_ends_of_undeclaredEnds {declared : List String} {ws : List Warning}
    (h : undeclaredEnds declared ss = .ok ws) :
    ∀ s ∈ ss, s.head = .call .rel →
      ∃ source target, s.param? 0 = some source ∧ s.param? 2 = some target := by
  induction ss generalizing ws with
  | nil => simp
  | cons s ss ih =>
    rw [undeclaredEnds] at h
    by_cases hr : s.head = .call .rel
    · rw [if_pos hr] at h
      cases hsource : s.need 0 with
      | error e => rw [hsource] at h; cases h
      | ok source =>
        cases htarget : s.need 2 with
        | error e => rw [hsource, htarget] at h; cases h
        | ok target =>
          cases hrest : undeclaredEnds declared ss with
          | error e => rw [hsource, htarget, hrest] at h; cases h
          | ok ws' =>
            refine List.forall_mem_cons.2 ⟨fun _ => ⟨source, target, ?_, ?_⟩, ih hrest⟩
            · exact Statement.need_eq_ok hsource
            · exact Statement.need_eq_ok htarget
    · rw [if_neg hr] at h
      exact List.forall_mem_cons.2 ⟨fun hs => absurd hs hr, ih h⟩

theorem reviewable_of_review {ws : List Warning} (h : review ss = .ok ws) :
    ∀ s ∈ ss, s.Reviewable := by
  rw [review] at h
  cases hrep : repeatedFrom [] ss with
  | error e => rw [hrep] at h; cases h
  | ok rep =>
    cases hdecl : declaredIds ss with
    | error e => rw [hrep, hdecl] at h; cases h
    | ok declared =>
      cases hund : undeclaredEnds declared ss with
      | error e => rw [hrep, hdecl] at h; simp [bind, Except.bind, hund] at h
      | ok und =>
        exact fun s hs => ⟨exists_id_of_repeatedFrom hrep s hs,
          exists_ends_of_undeclaredEnds hund s hs⟩

/-- The review fails exactly when a statement lacks a parameter. -/
theorem review_eq_error_iff :
    review ss = .error .missingParameter ↔ ∃ s ∈ ss, s.Lacking := by
  constructor
  · intro h
    by_contra hnone
    have hall : ∀ s ∈ ss, s.Reviewable := fun s hs =>
      Statement.reviewable_iff.2 fun hl => hnone ⟨s, hs, hl⟩
    rw [review_eq hall] at h
    cases h
  · rintro ⟨s, hs, hl⟩
    cases h : review ss with
    | error e => cases e; rfl
    | ok ws => exact absurd hl (Statement.reviewable_iff.1 (reviewable_of_review h s hs))

end

/-! ## Counting repeated declarations -/

/-- Whether a warning is on a repeated declaration; the others are on ends of relations. -/
def Warning.isRepeated : Warning → Bool
  | repeated _ _ _ => true
  | undeclared _ _ => false

/-- The warnings on repeated declarations, in the order of the statements. -/
def repeatWarnings (ss : List Statement) : List Warning :=
  (ss.mapIdx fun i s => s.repeats (ss.take i)).flatten

/-- The warnings on undeclared ends, in the order of the statements. -/
def endWarnings (ss : List Statement) : List Warning :=
  ss.flatMap fun s => s.looseEnds (declarations ss)

section
variable {s : Statement} {ss before : List Statement}

/-- One step: a declaration adds an id to those declared before, or is warned about. -/
theorem card_declarations_step (before : List Statement) (s : Statement) :
    (s.repeats before).length + (declarations (before ++ [s])).toFinset.card =
      (declarations before).toFinset.card + s.declared?.toList.length := by
  rw [declarations_concat]
  cases hdecl : s.declared? with
  | none => simp [Statement.repeats, hdecl]
  | some id =>
    have hset : (declarations before ++ [id]).toFinset =
        insert id (declarations before).toFinset := by
      ext x
      simp
    rw [Option.toList_some, hset, Statement.repeats, hdecl]
    cases hfirst : declaredOn? before id with
    | none =>
      have hnew : id ∉ (declarations before).toFinset := by
        rw [List.mem_toFinset]
        exact declaredOn?_eq_none_iff.1 hfirst
      rw [Finset.card_insert_of_notMem hnew]
      simp [hfirst]
    | some first =>
      have hold : id ∈ (declarations before).toFinset := by
        rw [List.mem_toFinset]
        by_contra hnew
        rw [declaredOn?_eq_none_iff.2 hnew] at hfirst
        cases hfirst
      rw [Finset.insert_eq_of_mem hold]
      simp [hfirst, Nat.add_comm]

/-- All steps, behind statements that declare some ids already. -/
theorem card_declarations_run (before ss : List Statement) :
    (ss.mapIdx fun i s => s.repeats (before ++ ss.take i)).flatten.length +
        (declarations (before ++ ss)).toFinset.card =
      (declarations before).toFinset.card + (declarations ss).length := by
  induction ss generalizing before with
  | nil => simp [declarations]
  | cons s ss ih =>
    have hstep := card_declarations_step before s
    have hrun := ih (before ++ [s])
    have hall : before ++ [s] ++ ss = before ++ s :: ss := by simp
    rw [hall] at hrun
    rw [mapIdx_repeats_cons, List.flatten_cons, List.length_append, declarations_cons,
      List.length_append]
    omega

theorem length_declarations (h : ∀ s ∈ ss, s.Reviewable) :
    (declarations ss).length = ss.countP Statement.isNode := by
  induction ss with
  | nil => rfl
  | cons s ss ih =>
    obtain ⟨hs, hss⟩ := List.forall_mem_cons.1 h
    rw [declarations_cons, List.length_append, ih hss]
    by_cases hn : s.isNode = true
    · obtain ⟨id, hid⟩ := hs.node hn
      rw [Statement.declared?_of_node hn hid, List.countP_cons_of_pos hn]
      exact Nat.add_comm _ _
    · rw [Statement.declared?_of_not_node hn, List.countP_cons_of_neg hn]
      exact Nat.zero_add _

/-- Each id has one declaration that is not warned about. -/
theorem length_repeatWarnings (h : ∀ s ∈ ss, s.Reviewable) :
    (repeatWarnings ss).length + (declarations ss).toFinset.card = ss.countP Statement.isNode := by
  have hrun := card_declarations_run [] ss
  have hnone : (declarations []).toFinset.card = 0 := rfl
  simp only [List.nil_append] at hrun
  rw [hnone, length_declarations h, Nat.zero_add] at hrun
  exact hrun

end

/-! ## Statements in another order -/

section
variable {ss ss' : List Statement}

theorem looseEnds_congr {declared declared' : List String}
    (h : ∀ id, id ∈ declared ↔ id ∈ declared') (s : Statement) :
    s.looseEnds declared = s.looseEnds declared' := by
  have hsame (id : String) : declared.contains id = declared'.contains id := by
    rw [Bool.eq_iff_iff, List.contains_iff_mem, List.contains_iff_mem, h id]
  simp only [Statement.looseEnds, hsame]

theorem endWarnings_perm (h : ss.Perm ss') : (endWarnings ss).Perm (endWarnings ss') := by
  have hids : (declarations ss).Perm (declarations ss') := h.filterMap _
  have hsame (s : Statement) :
      s.looseEnds (declarations ss) = s.looseEnds (declarations ss') :=
    looseEnds_congr (fun _ => hids.mem_iff) s
  simp only [endWarnings, hsame]
  exact h.flatMap_right _

theorem length_repeatWarnings_perm (hr : ∀ s ∈ ss, s.Reviewable) (h : ss.Perm ss') :
    (repeatWarnings ss).length = (repeatWarnings ss').length := by
  have hcount := length_repeatWarnings hr
  have hcount' := length_repeatWarnings fun s hs => hr s (h.mem_iff.2 hs)
  have hids : (declarations ss).toFinset = (declarations ss').toFinset :=
    List.toFinset_eq_of_perm _ _ (h.filterMap _)
  rw [← hids, ← h.countP_eq] at hcount'
  omega

end

/-! ## The warnings of a review -/

section
variable {ss : List Statement}

theorem isRepeated_of_mem_repeatWarnings {w : Warning} (h : w ∈ repeatWarnings ss) :
    w.isRepeated = true := by
  obtain ⟨block, hblock, hw⟩ := List.mem_flatten.1 h
  obtain ⟨i, hi, rfl⟩ := List.mem_mapIdx.1 hblock
  obtain ⟨id, -, hw⟩ := List.mem_flatMap.1 hw
  obtain ⟨first, -, rfl⟩ := List.mem_map.1 hw
  rfl

theorem isRepeated_of_mem_endWarnings {w : Warning} (h : w ∈ endWarnings ss) :
    w.isRepeated = false := by
  obtain ⟨s, -, hw⟩ := List.mem_flatMap.1 h
  obtain ⟨id, -, rfl⟩ := List.mem_map.1 hw
  rfl

theorem mapIdx_flatten_eq_flatMap (f : Statement → List Warning) :
    (ss.mapIdx fun _ s => f s).flatten = ss.flatMap f := by
  induction ss with
  | nil => rfl
  | cons s ss ih => rw [List.mapIdx_cons, List.flatten_cons, List.flatMap_cons, ← ih]

theorem review_eq_sorted (h : ∀ s ∈ ss, s.Reviewable) :
    review ss = .ok ((repeatWarnings ss ++ endWarnings ss).mergeSort
      fun a b => decide (a.line ≤ b.line)) := by
  rw [review_eq h, mapIdx_flatten_eq_flatMap]
  rfl

variable {ws : List Warning} (hr : ∀ s ∈ ss, s.Reviewable) (h : review ss = .ok ws)

include hr h in
theorem warnings_perm : ws.Perm (repeatWarnings ss ++ endWarnings ss) := by
  rw [review_eq_sorted hr] at h
  rw [← Except.ok.inj h]
  exact List.mergeSort_perm _ _

include hr h in
theorem countP_isRepeated : ws.countP Warning.isRepeated = (repeatWarnings ss).length := by
  have hends : (endWarnings ss).countP Warning.isRepeated = 0 :=
    List.countP_eq_zero.2 fun w hw => by simp [isRepeated_of_mem_endWarnings hw]
  rw [(warnings_perm hr h).countP_eq, List.countP_append, hends, Nat.add_zero]
  exact List.countP_eq_length.2 fun _ => isRepeated_of_mem_repeatWarnings

include hr h in
theorem filter_not_isRepeated_perm :
    (ws.filter fun w => !w.isRepeated).Perm (endWarnings ss) := by
  have hrepeats : (repeatWarnings ss).filter (fun w => !w.isRepeated) = [] :=
    List.filter_eq_nil_iff.2 fun w hw => by simp [isRepeated_of_mem_repeatWarnings hw]
  have hends : (endWarnings ss).filter (fun w => !w.isRepeated) = endWarnings ss :=
    List.filter_eq_self.2 fun w hw => by simp [isRepeated_of_mem_endWarnings hw]
  have hperm := (warnings_perm hr h).filter fun w => !w.isRepeated
  rwa [List.filter_append, hrepeats, hends] at hperm

include hr h in
/-- In another order there are as many warnings, and the same ones on undeclared ends. -/
theorem exists_review_of_perm {ss' : List Statement} (hperm : ss.Perm ss') :
    ∃ ws', review ss' = .ok ws' ∧ ws'.length = ws.length ∧
      (ws'.filter fun w => !w.isRepeated).Perm (ws.filter fun w => !w.isRepeated) := by
  have hr' : ∀ s ∈ ss', s.Reviewable := fun s hs => hr s (hperm.mem_iff.2 hs)
  have h' := review_eq_sorted hr'
  refine ⟨_, h', ?_, ?_⟩
  · rw [(warnings_perm hr' h').length_eq, (warnings_perm hr h).length_eq, List.length_append,
      List.length_append, length_repeatWarnings_perm hr hperm, (endWarnings_perm hperm).length_eq]
  · have hends := filter_not_isRepeated_perm hr h
    have hends' := filter_not_isRepeated_perm hr' h'
    exact hends'.trans ((endWarnings_perm hperm).symm.trans hends.symm)

end

/-- The review of statements in any order and on any lines. It fails if and only if a statement
lacks a parameter. Otherwise the warnings stand in the order of their lines, and on one line those
on repeated declarations come first, each kind in the order of the statements. All declarations are
warned about but one for each id. In another order of the statements there are as many warnings,
and the same ones on undeclared ends. -/
theorem review_in_any_order (ss : List Statement) :
    (review ss = .error .missingParameter ↔ ∃ s ∈ ss, s.Lacking) ∧
    ((∀ s ∈ ss, ¬s.Lacking) → ∃ ws, review ss = .ok ws ∧
      ws.Pairwise (fun a b => a.line ≤ b.line) ∧
      (∀ line, ws.filter (·.line == line) =
        (repeatWarnings ss).filter (·.line == line) ++ (endWarnings ss).filter (·.line == line)) ∧
      ws.countP Warning.isRepeated + (declarations ss).toFinset.card =
        ss.countP Statement.isNode ∧
      ∀ ss', ss.Perm ss' → ∃ ws', review ss' = .ok ws' ∧ (ws' = [] ↔ ws = []) ∧
        ws'.length = ws.length ∧
        (ws'.filter fun w => !w.isRepeated).Perm (ws.filter fun w => !w.isRepeated)) := by
  refine ⟨review_eq_error_iff, fun hnone => ?_⟩
  have hr : ∀ s ∈ ss, s.Reviewable := fun s hs => Statement.reviewable_iff.2 (hnone s hs)
  have hws := review_eq_sorted hr
  refine ⟨_, hws, pairwise_mergeSort_key _, fun line => ?_, ?_, fun ss' hperm => ?_⟩
  · rw [filter_mergeSort_key, List.filter_append]
  · rw [countP_isRepeated hr hws]
    exact length_repeatWarnings hr
  · obtain ⟨ws', hws', hlength, hends⟩ := exists_review_of_perm hr hws hperm
    refine ⟨ws', hws', ?_, hlength, hends⟩
    rw [← List.length_eq_zero_iff, ← List.length_eq_zero_iff, hlength]

/-- Three declarations of two ids, a relation before them and a word outside the vocabulary, on
lines that go up and down, and the same from last to first. -/
theorem review_in_any_order_reversed :
    let a : Token := ⟨.identifier, "a", 1⟩
    let b : Token := ⟨.identifier, "b", 1⟩
    let c : Token := ⟨.identifier, "c", 1⟩
    let ss : List Statement := [⟨.call .rel, 5, [a, c, b]⟩, ⟨.call .queue, 9, [a]⟩,
      ⟨.other "Note", 2, []⟩, ⟨.call .entity, -2, [a, b]⟩, ⟨.call .decision, 5, [c]⟩]
    (∀ s ∈ ss, ¬s.Lacking) ∧ ss.Perm ss.reverse ∧
    ∃ ws ws', review ss = .ok ws ∧ review ss.reverse = .ok ws' ∧
      ws.countP Warning.isRepeated = 1 ∧ ws'.length = ws.length ∧
      (ws'.filter fun w => !w.isRepeated).Perm (ws.filter fun w => !w.isRepeated) := by
  intro a b c ss
  have hnone : ∀ s ∈ ss, ¬s.Lacking := by
    simp [ss, Statement.Lacking, Statement.isNode, Head.isNode, CallName.isNode]
  have hperm : ss.Perm ss.reverse := (List.reverse_perm ss).symm
  obtain ⟨ws, hws, -, -, hcount, horder⟩ := (review_in_any_order ss).2 hnone
  obtain ⟨ws', hws', -, hlength, hends⟩ := horder _ hperm
  have hids : (declarations ss).toFinset.card = 2 := by decide
  have hnodes : ss.countP Statement.isNode = 3 := by decide
  exact ⟨hnone, hperm, ws, ws', hws, hws', by omega, hlength, hends⟩

end Flowchart

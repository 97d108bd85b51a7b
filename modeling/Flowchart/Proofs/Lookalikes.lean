import Flowchart.Proofs.Envelope

/-!
# Lookalikes

A document determines the statements it was drawn from, up to two pairs of
shapes: a rectangle around a label in brackets is a subroutine box, and one
around a label in parentheses is a cylinder. Labels may hold every delimiter of
every shape, and still no other two drawings are alike.
-/

namespace Flowchart

/-! ## Frames -/

/-- A label in the frame of a node. -/
def CallName.framed (name : CallName) (label : List Char) : List Char :=
  name.frame.1.toList ++ (label ++ name.frame.2.toList)

/-- A label of an entity that makes its rectangle look like another node with its label. -/
def CallName.Wraps (label : List Char) (name : CallName) (inner : List Char) : Prop :=
  name = .queue ∧ label = '[' :: (inner ++ [']']) ∨
    name = .database ∧ label = '(' :: (inner ++ [')'])

theorem concat_eq_wrapped {x y : List Char} {a b c : Char} :
    x ++ [c] = a :: (y ++ [b, c]) ↔ x = a :: (y ++ [b]) := by
  have hsplit : a :: (y ++ [b, c]) = (a :: (y ++ [b])) ++ [c] := by simp
  rw [hsplit, List.append_left_inj]

theorem wrapped_eq_concat {x y : List Char} {a b c : Char} :
    a :: (y ++ [b, c]) = x ++ [c] ↔ x = a :: (y ++ [b]) := by
  rw [eq_comm, concat_eq_wrapped]

namespace CallName

theorem eq_of_isNode {name : CallName} (h : name.isNode = true) :
    name = .entity ∨ name = .database ∨ name = .queue ∨ name = .decision := by
  cases name <;> simp_all [isNode]

/-- An entity can be framed like a queue or a database, and no other two nodes can be alike. -/
theorem framed_eq_iff {a b : CallName} (ha : a.isNode = true) (hb : b.isNode = true)
    (x y : List Char) :
    a.framed x = b.framed y ↔
      a = b ∧ x = y ∨ a = .entity ∧ Wraps x b y ∨ b = .entity ∧ Wraps y a x := by
  rcases eq_of_isNode ha with rfl | rfl | rfl | rfl <;>
    rcases eq_of_isNode hb with rfl | rfl | rfl | rfl <;>
    simp [framed, frame, Wraps, concat_eq_wrapped, wrapped_eq_concat]

/-- The frame of an edge begins like that of no node. -/
theorem framed_ne_edge {a : CallName} (ha : a.isNode = true) (x cs : List Char) :
    a.framed x ≠ rel.frame.1.toList ++ cs := by
  rcases eq_of_isNode ha with rfl | rfl | rfl | rfl <;> simp [framed, frame]

end CallName

/-- The last bar of an edge is the one before its target, whatever the label holds. -/
theorem label_target_unique {x y b c : List Char} (hb : ∀ d ∈ b, d.isAlpha = true)
    (hc : ∀ d ∈ c, d.isAlpha = true) (h : x ++ '|' :: b = y ++ '|' :: c) : x = y ∧ b = c := by
  have hrev : b.reverse ++ '|' :: x.reverse = c.reverse ++ '|' :: y.reverse := by
    simpa using congrArg List.reverse h
  have hstop (z : List Char) : Stops Char.isAlpha ('|' :: z) := stops_cons.2 (by decide)
  obtain ⟨hbc, hxy⟩ := run_unique (by simpa using hb) (hstop _) (by simpa using hc) (hstop _) hrev
  exact ⟨List.reverse_injective (List.cons.inj hxy).2, List.reverse_injective hbc⟩

/-! ## Clauses -/

namespace Clause

/-- An entity that is drawn like a queue or a database. -/
def Covers (c d : Clause) : Prop :=
  c.head = .entity ∧ c.id.chars = d.id.chars ∧ CallName.Wraps c.label.chars d.head d.label.chars

/-- Equal drawings have equal ids, and the same stands behind them. -/
theorem drawing_eq_iff_rest (c d : Clause) :
    c.drawing = d.drawing ↔ c.id.chars = d.id.chars ∧
      c.head.frame.1.toList ++ (c.label.chars ++ (c.head.frame.2.toList ++ c.goal)) =
        d.head.frame.1.toList ++ (d.label.chars ++ (d.head.frame.2.toList ++ d.goal)) := by
  rw [← String.toList_inj]
  constructor
  · intro h
    exact c.id_unique d.id.letters (d.head.stops_frame _) (h.trans d.toList_drawing)
  · rintro ⟨hid, hrest⟩
    rw [toList_drawing, toList_drawing, hid, hrest]

/-- Two clauses are drawn alike only if they say the same or one covers the other. -/
theorem drawing_eq_iff (c d : Clause) :
    c.drawing = d.drawing ↔
      c.head = d.head ∧ c.arguments = d.arguments ∨ c.Covers d ∨ d.Covers c := by
  rw [drawing_eq_iff_rest]
  cases c with
  | node a ha id x =>
    cases d with
    | node b hb id' y =>
      have hframed := CallName.framed_eq_iff ha hb x.chars y.chars
      simp only [CallName.framed] at hframed
      simp only [head, Clause.id, label, goal, List.append_nil, hframed, arguments, Covers,
        List.cons.injEq, Prod.mk.injEq, true_and, and_true]
      constructor
      · rintro ⟨hid, ⟨hab, hxy⟩ | ⟨ha, hw⟩ | ⟨hb, hw⟩⟩
        · exact .inl ⟨hab, hid, hxy⟩
        · exact .inr (.inl ⟨ha, hid, hw⟩)
        · exact .inr (.inr ⟨hb, hid.symm, hw⟩)
      · rintro (⟨hab, hid, hxy⟩ | ⟨ha, hid, hw⟩ | ⟨hb, hid, hw⟩)
        · exact ⟨hid, .inl ⟨hab, hxy⟩⟩
        · exact ⟨hid, .inr (.inl ⟨ha, hw⟩)⟩
        · exact ⟨hid.symm, .inr (.inr ⟨hb, hw⟩)⟩
    | edge source y target =>
      have hne := CallName.framed_ne_edge ha x.chars
      simp only [CallName.framed] at hne
      simp [head, label, goal, hne, Covers, CallName.Wraps, arguments]
  | edge source x target =>
    cases d with
    | node b hb id' y =>
      have hne := fun cs => (CallName.framed_ne_edge hb y.chars cs).symm
      simp only [CallName.framed] at hne
      simp [head, label, goal, hne, Covers, CallName.Wraps, arguments]
    | edge source' y target' =>
      have hunique := label_target_unique (x := x.chars) (y := y.chars) target.letters
        target'.letters
      simp only [head, Clause.id, label, goal, arguments, Covers, List.append_right_inj,
        List.cons.injEq, Prod.mk.injEq, true_and, and_true, reduceCtorEq, false_and, or_false]
      constructor
      · rintro ⟨hid, hrest⟩
        exact ⟨hid, hunique hrest⟩
      · rintro ⟨hid, hxy, htarget⟩
        rw [hxy, htarget]
        exact ⟨hid, rfl⟩

end Clause

/-! ## Statements -/

namespace Statement

/-- An entity whose label is in brackets looks like a queue, one whose label is in parentheses
like a database. -/
def LooksLike (s u : Statement) : Prop :=
  ∃ id x, s.head = .call .entity ∧
    (s.values = [id, "[" ++ x ++ "]"] ∧ u.head = .call .queue ∧ u.values = [id, x] ∨
      s.values = [id, "(" ++ x ++ ")"] ∧ u.head = .call .database ∧ u.values = [id, x])

/-- Two statements that say the same, or of which one looks like the other. -/
def Alike (s u : Statement) : Prop :=
  s.head = u.head ∧ s.values = u.values ∨ s.LooksLike u ∨ u.LooksLike s

end Statement

theorem ofList_eq_wrapped {x y : List Char} {a b : Char} :
    String.ofList x = String.ofList [a] ++ String.ofList y ++ String.ofList [b] ↔
      x = a :: (y ++ [b]) := by
  rw [← String.toList_inj]
  simp

section
variable {s u : Statement} {c d : Clause}

theorem Statement.Says.same_iff (hs : s.Says c) (hu : u.Says d) :
    s.head = u.head ∧ s.values = u.values ↔ c.head = d.head ∧ c.arguments = d.arguments := by
  rw [hs.head_eq, hu.head_eq, hs.values_eq, hu.values_eq, Head.call.injEq]
  refine and_congr_right fun hhead => ?_
  -- the call gives the kinds of the arguments, so that their values tell them
  cases c with
  | node a ha id x =>
    cases d with
    | node b hb id' y => simp [Clause.arguments, String.ofList_inj]
    | edge source y target => simp [Clause.arguments]
  | edge source x target =>
    cases d with
    | node b hb id' y => simp [Clause.arguments]
    | edge source' y target' => simp [Clause.arguments, String.ofList_inj]

theorem Statement.Says.looksLike_iff (hs : s.Says c) (hu : u.Says d) :
    s.LooksLike u ↔ c.Covers d := by
  rw [LooksLike, hs.head_eq, hu.head_eq, hs.values_eq, hu.values_eq]
  cases c with
  | edge source x target => simp [Clause.head, Clause.Covers]
  | node a ha id x =>
    cases d with
    | edge source y target => simp [Clause.head, Clause.Covers, CallName.Wraps]
    | node b hb id' y =>
      simp only [Clause.head, Clause.arguments, Clause.Covers, Clause.id, Clause.label,
        CallName.Wraps, List.map_cons, List.map_nil, List.cons.injEq, and_true, Head.call.injEq]
      constructor
      · rintro ⟨i, z, ha, ⟨⟨hi, hx⟩, hb, hi', rfl⟩ | ⟨⟨hi, hx⟩, hb, hi', rfl⟩⟩
        · have hid := String.ofList_injective (hi.trans hi'.symm)
          exact ⟨ha, hid, .inl ⟨hb, ofList_eq_wrapped.1 hx⟩⟩
        · have hid := String.ofList_injective (hi.trans hi'.symm)
          exact ⟨ha, hid, .inr ⟨hb, ofList_eq_wrapped.1 hx⟩⟩
      · rintro ⟨ha, hid, ⟨hb, hx⟩ | ⟨hb, hx⟩⟩
        · exact ⟨_, _, ha, .inl ⟨⟨rfl, ofList_eq_wrapped.2 hx⟩, hb, by rw [hid], rfl⟩⟩
        · exact ⟨_, _, ha, .inr ⟨⟨rfl, ofList_eq_wrapped.2 hx⟩, hb, by rw [hid], rfl⟩⟩

/-- Statements are drawn alike exactly when they are alike. -/
theorem Statement.Says.alike_iff (hs : s.Says c) (hu : u.Says d) :
    c.drawing = d.drawing ↔ s.Alike u := by
  rw [c.drawing_eq_iff, ← hs.same_iff hu, ← hs.looksLike_iff hu, ← hu.looksLike_iff hs]
  rfl

end

/-! ## Documents -/

theorem renderDocument_inj (fenced : Bool) {ls ms : List String}
    (hl : ∀ l ∈ ls, '\n' ∉ l.toList) (hm : ∀ l ∈ ms, '\n' ∉ l.toList) :
    renderDocument fenced ls = renderDocument fenced ms ↔ ls = ms := by
  constructor
  · intro h
    have hcut := congrArg cutAtNewlines h
    rw [cutAtNewlines_renderDocument fenced hl, cutAtNewlines_renderDocument fenced hm,
      List.append_left_inj] at hcut
    cases fenced <;> simpa [documentLines] using hcut
  · rintro rfl; rfl

theorem map_drawing_eq_iff {ss us : List Statement} {cs ds : List Clause}
    (hs : List.Forall₂ Statement.Says ss cs) (hu : List.Forall₂ Statement.Says us ds) :
    cs.map Clause.drawing = ds.map Clause.drawing ↔ List.Forall₂ Statement.Alike ss us := by
  induction hs generalizing us ds with
  | nil =>
    cases hu with
    | nil => simp
    | cons hu hus => simp
  | cons hs hss ih =>
    cases hu with
    | nil => simp
    | cons hu hus =>
      rw [List.map_cons, List.map_cons, List.cons.injEq, List.forall₂_cons, hs.alike_iff hu, ih hus]

/-- A document tells the statements it was drawn from: two sources have the same document exactly
when they have equally many statements, and these are alike one by one. -/
theorem document_eq_iff (fenced : Bool) (a b : String) (ss us : List Statement)
    (ha : parseLines (sourceLines a) = .ok ss) (hb : parseLines (sourceLines b) = .ok us) :
    ∃ ls ms, transpile (sourceLines a) = .ok ls ∧ transpile (sourceLines b) = .ok ms ∧
      (renderDocument fenced ls = renderDocument fenced ms ↔
        List.Forall₂ Statement.Alike ss us) := by
  obtain ⟨cs, hcs⟩ := exists_clauses ha
  obtain ⟨ds, hds⟩ := exists_clauses hb
  refine ⟨_, _, transpile_of_says ha hcs, transpile_of_says hb hds, ?_⟩
  have hnewline (cs : List Clause) : ∀ l ∈ cs.map Clause.drawing, '\n' ∉ l.toList :=
    List.forall_mem_map.2 fun c _ => c.newline_not_mem_drawing
  rw [renderDocument_inj fenced (hnewline cs) (hnewline ds), map_drawing_eq_iff hcs hds]

/-- An entity with a label in brackets and a queue, each with the same edge behind it. -/
theorem document_eq_iff_entity_queue :
    ∃ ls ms, transpile (sourceLines "Entity(a, \"[x]\")\nRel(a, \"|\", b)") = .ok ls ∧
      transpile (sourceLines "Queue(a \"x\")\n\nRel(a \"|\"\nb)") = .ok ms ∧
      renderDocument true ls = renderDocument true ms := by
  have ha : parseLines (sourceLines "Entity(a, \"[x]\")\nRel(a, \"|\", b)") =
      .ok [⟨.call .entity, 1, [⟨.identifier, "a", 1⟩, ⟨.string, "[x]", 1⟩]⟩,
        ⟨.call .rel, 2, [⟨.identifier, "a", 2⟩, ⟨.string, "|", 2⟩, ⟨.identifier, "b", 2⟩]⟩] := by
    decide +kernel
  have hb : parseLines (sourceLines "Queue(a \"x\")\n\nRel(a \"|\"\nb)") =
      .ok [⟨.call .queue, 1, [⟨.identifier, "a", 1⟩, ⟨.string, "x", 1⟩]⟩,
        ⟨.call .rel, 3, [⟨.identifier, "a", 3⟩, ⟨.string, "|", 3⟩, ⟨.identifier, "b", 4⟩]⟩] := by
    decide +kernel
  obtain ⟨ls, ms, hls, hms, hiff⟩ := document_eq_iff true _ _ _ _ ha hb
  refine ⟨ls, ms, hls, hms, hiff.2 (.cons ?_ (.cons ?_ .nil))⟩
  · exact .inr (.inl ⟨"a", "x", rfl, .inl ⟨rfl, rfl, rfl⟩⟩)
  · exact .inl ⟨rfl, rfl⟩

end Flowchart

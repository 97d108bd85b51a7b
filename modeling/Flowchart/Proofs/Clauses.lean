import Flowchart.Proofs.Concatenation
import Flowchart.Proofs.Layout

/-!
# What a source says

The tokens of a source are made of characters of its lines, so an id is a word
and a label holds neither a quote nor a terminator. Every statement of a source
that parses therefore says a `Clause`, and the flowchart lines of the source
are the drawings of its clauses.
-/

namespace Flowchart

open Text

/-! ## Tokens of a source -/

/-- The value of a token is one that its kind has, and stands on one line. -/
structure Token.Clean (t : Token) : Prop where
  admits : t.kind.Admits t.value.toList
  unbroken : ∀ c ∈ t.value.toList, isTerminator c = false

theorem Kind.infix_write (k : Kind) (v : List Char) : v <:+: k.write v := by
  cases k with
  | string => exact ⟨['"'], ['"'], rfl⟩
  | _ => exact List.infix_refl v

/-- The value of a token stands in the text. -/
theorem Spacing.infix_text {s : Spacing} {t : Token} (h : t ∈ s.tokens) :
    t.value.toList <:+: s.text := by
  obtain ⟨i, hi, rfl⟩ := List.mem_map.1 h
  have hwritten : i.1.written <:+: i.1.written ++ i.2 := (List.prefix_append _ _).isInfix
  have hitem : i.1.written ++ i.2 <:+: s.items.flatMap fun i => i.1.written ++ i.2 := by
    obtain ⟨before, after, hcut⟩ := List.append_of_mem hi
    rw [hcut, List.flatMap_append, List.flatMap_cons]
    exact ((List.prefix_append _ _).isInfix).trans (List.suffix_append _ _).isInfix
  have hitems : (s.items.flatMap fun i => i.1.written ++ i.2) <:+: s.text :=
    (List.suffix_append _ _).isInfix
  exact (i.1.kind.infix_write _).trans (hwritten.trans (hitem.trans hitems))

theorem clean_of_tokenize {l : SourceLine} {ts : List Token} (h : tokenize l = .ok ts)
    (hl : ∀ c ∈ l.text.toList, isTerminator c = false) : ∀ t ∈ ts, t.Clean := by
  obtain ⟨s, hs, rfl, htext⟩ := exists_spacing_of_tokenize h
  intro t ht
  refine ⟨hs.admitted t ht, fun c hc => hl c ?_⟩
  rw [← htext]
  exact (Spacing.infix_text ht).subset hc

theorem clean_of_tokenizeLines {ls : List SourceLine} {ts : List Token}
    (h : tokenizeLines ls = .ok ts)
    (hl : ∀ l ∈ ls, ∀ c ∈ l.text.toList, isTerminator c = false) : ∀ t ∈ ts, t.Clean := by
  intro t ht
  obtain ⟨l, hmem, us, hus, htus⟩ := exists_line_of_token h ht
  exact clean_of_tokenize hus (hl l hmem) t htus

theorem unbroken_of_mem_numberLines {n : Int} {ls : List (List Char)}
    (h : ∀ l ∈ ls, ∀ c ∈ l, isTerminator c = false) :
    ∀ l ∈ numberLines n ls, ∀ c ∈ l.text.toList, isTerminator c = false := by
  induction ls generalizing n with
  | nil => simp [numberLines]
  | cons l ls ih =>
    obtain ⟨hl, hls⟩ := List.forall_mem_cons.1 h
    refine List.forall_mem_cons.2 ⟨?_, ih hls⟩
    simpa using hl

theorem clean_of_source {text : String} {ts : List Token}
    (h : tokenizeLines (sourceLines text) = .ok ts) : ∀ t ∈ ts, t.Clean :=
  clean_of_tokenizeLines h (unbroken_of_mem_numberLines fun _ => unbroken_of_mem_lines)

/-! ## Clauses -/

theorem Sentence.params_subset_tokens {d : Sentence} {c : Call × Strays} (h : c ∈ d.calls) :
    c.1.params ⊆ d.tokens := by
  intro p hp
  refine List.mem_append_right _ (List.mem_flatMap.2 ⟨c, h, ?_⟩)
  simp [Call.tokens, hp]

/-- A statement says a clause, wherever it stands. -/
def Statement.Says (s : Statement) (c : Clause) : Prop :=
  s.content = (.call c.head, c.arguments.map fun a => (a.1, String.ofList a.2))

def Token.Clean.word {t : Token} (h : t.Clean) (hk : t.kind = .identifier) : Word :=
  have ha : Kind.identifier.Admits t.value.toList := hk ▸ h.admits
  ⟨t.value.toList, ha.1, ha.2⟩

def Token.Clean.label {t : Token} (h : t.Clean) (hk : t.kind = .string) : Label :=
  have ha : Kind.string.Admits t.value.toList := hk ▸ h.admits
  ⟨t.value.toList, ha, h.unbroken⟩

/-- The kinds that the signature of a call asks for make its parameters the arguments of a
clause. -/
theorem Call.exists_clause (c : Call) (h : ∀ p ∈ c.params, p.Clean) :
    ∃ clause, c.statement.Says clause := by
  obtain ⟨head, name, opening, params, closing, hn, hv, ho, hp, hc⟩ := c
  have hnode (hhead : head.isNode = true) (hsig : head.signature = [.identifier, .string]) :
      ∃ clause, Statement.Says ⟨.call head, name.line, params⟩ clause := by
    rw [hsig] at hp
    obtain ⟨id, rest, rfl, hid, hrest⟩ := List.map_eq_cons_iff.1 hp
    obtain ⟨label, rest, rfl, hlabel, hnil⟩ := List.map_eq_cons_iff.1 hrest
    obtain rfl := List.map_eq_nil_iff.1 hnil
    refine ⟨.node head hhead ((h id (by simp)).word hid) ((h label (by simp)).label hlabel), ?_⟩
    simp [Statement.Says, Statement.content, Clause.head, Clause.arguments, Token.Clean.word,
      Token.Clean.label, hid, hlabel]
  cases head with
  | entity => exact hnode rfl rfl
  | database => exact hnode rfl rfl
  | queue => exact hnode rfl rfl
  | decision => exact hnode rfl rfl
  | rel =>
    obtain ⟨source, rest, rfl, hsource, hrest⟩ := List.map_eq_cons_iff.1 hp
    obtain ⟨label, rest, rfl, hlabel, hrest⟩ := List.map_eq_cons_iff.1 hrest
    obtain ⟨target, rest, rfl, htarget, hnil⟩ := List.map_eq_cons_iff.1 hrest
    obtain rfl := List.map_eq_nil_iff.1 hnil
    refine ⟨.edge ((h source (by simp)).word hsource) ((h label (by simp)).label hlabel)
      ((h target (by simp)).word htarget), ?_⟩
    simp [Statement.Says, Statement.content, Call.statement, Clause.head, Clause.arguments,
      Token.Clean.word, Token.Clean.label, hsource, hlabel, htarget]

theorem exists_forall₂ {α β : Type} {R : α → β → Prop} {xs : List α}
    (h : ∀ x ∈ xs, ∃ y, R x y) : ∃ ys, List.Forall₂ R xs ys := by
  induction xs with
  | nil => exact ⟨[], .nil⟩
  | cons x xs ih =>
    obtain ⟨⟨y, hy⟩, hxs⟩ := List.forall_mem_cons.1 h
    obtain ⟨ys, hys⟩ := ih hxs
    exact ⟨y :: ys, .cons hy hys⟩

/-- Every statement of a source says a clause. -/
theorem exists_clauses {text : String} {ss : List Statement}
    (h : parseLines (sourceLines text) = .ok ss) : ∃ cs, List.Forall₂ Statement.Says ss cs := by
  obtain ⟨ts, hts, hparse⟩ := exists_tokens_of_parseLines h
  have hclean := clean_of_source hts
  obtain ⟨d, rfl, rfl⟩ := Sentence.exists_of_parse hparse
  refine exists_forall₂ fun s hs => ?_
  obtain ⟨c, hc, rfl⟩ := List.mem_map.1 hs
  exact c.1.exists_clause fun p hp => hclean p (Sentence.params_subset_tokens hc hp)

namespace Statement

def values (s : Statement) : List String := s.params.map (·.value)

variable {s : Statement} {c : Clause}

theorem Says.head_eq (h : s.Says c) : s.head = .call c.head := congrArg Prod.fst h

theorem Says.values_eq (h : s.Says c) : s.values = c.arguments.map fun a => String.ofList a.2 := by
  have hvalues := congrArg (fun x => x.2.map Prod.snd) h
  simp only [content, List.map_map] at hvalues
  exact hvalues

theorem Says.draws (h : s.Says c) : s.Draws c.drawing := by
  refine ⟨c.head, h.head_eq, ?_⟩
  rw [← c.line_arguments]
  exact congrArg _ h.values_eq

end Statement

/-- The flowchart lines of a source are the drawings of its clauses. -/
theorem transpile_of_says {text : String} {ss : List Statement} {cs : List Clause}
    (h : parseLines (sourceLines text) = .ok ss) (hs : List.Forall₂ Statement.Says ss cs) :
    transpile (sourceLines text) = .ok (cs.map Clause.drawing) :=
  transpile_of_draws h (List.forall₂_map_right_iff.2 (hs.imp fun _ _ => Statement.Says.draws))

/-! ## Drawings -/

namespace CallName

/-- The left side of a frame does not go on with an id. -/
theorem stops_frame (name : CallName) (cs : List Char) :
    Stops Char.isAlpha (name.frame.1.toList ++ cs) := by
  cases name <;> exact stops_cons.2 (by decide)

theorem unbroken_frame (name : CallName) :
    ∀ c ∈ name.frame.1.toList ++ name.frame.2.toList, isTerminator c = false := by
  have h : (name.frame.1.toList ++ name.frame.2.toList).any isTerminator = false := by
    cases name <;> decide
  exact fun c hc => eq_false_of_ne_true (List.any_eq_false.1 h c hc)

end CallName

namespace Clause

def id : Clause → Word
  | node _ _ id _ => id
  | edge source _ _ => source

def label : Clause → Label
  | node _ _ _ label => label
  | edge _ label _ => label

/-- The id behind the label; a node has none. -/
def goal : Clause → List Char
  | node _ _ _ _ => []
  | edge _ _ target => target.chars

/-- A drawing is the id, the label in its frame, and the target of an edge. -/
theorem toList_drawing (c : Clause) :
    c.drawing.toList = c.id.chars ++ (c.head.frame.1.toList ++
      (c.label.chars ++ (c.head.frame.2.toList ++ c.goal))) := by
  cases c <;> simp [drawing, id, label, goal, head]

theorem goal_letters (c : Clause) : ∀ d ∈ c.goal, d.isAlpha = true := by
  cases c with
  | node name hn id label => simp [goal]
  | edge source label target => exact target.letters

theorem exists_head_drawing (c : Clause) : ∃ d ∈ c.drawing.toList.head?, d.isAlpha = true := by
  obtain ⟨d, ds, hd⟩ := List.exists_cons_of_ne_nil c.id.nonempty
  refine ⟨d, ?_, c.id.letters d (by simp [hd])⟩
  rw [toList_drawing, hd]; rfl

theorem drawing_unbroken (c : Clause) : ∀ d ∈ c.drawing.toList, isTerminator d = false := by
  have hword {ds : List Char} (h : ∀ d ∈ ds, d.isAlpha = true) :
      ∀ d ∈ ds, isTerminator d = false := fun d hd => not_isTerminator_of_isAlpha (h d hd)
  have hframe := List.forall_mem_append.1 c.head.unbroken_frame
  rw [toList_drawing]
  simp only [List.forall_mem_append]
  exact ⟨hword c.id.letters, hframe.1, c.label.unbroken, hframe.2, hword c.goal_letters⟩

/-- The id is the run of letters that a drawing begins with. -/
theorem id_unique {c : Clause} {word rest : List Char} (hw : ∀ d ∈ word, d.isAlpha = true)
    (hr : Stops Char.isAlpha rest) (h : c.drawing.toList = word ++ rest) :
    c.id.chars = word ∧
      c.head.frame.1.toList ++ (c.label.chars ++ (c.head.frame.2.toList ++ c.goal)) = rest := by
  rw [toList_drawing] at h
  exact run_unique c.id.letters (c.head.stops_frame _) hw hr h

end Clause

end Flowchart

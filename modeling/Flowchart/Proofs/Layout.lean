import Flowchart.Proofs.Document
import Flowchart.Proofs.Generation

/-!
# Layouts

A `Clause` is what a statement says. A `Layout` writes clauses down in order:
gaps of blanks, commas and line breaks stand where they may, and the rest of
the line behind each closing parenthesis is blank. Every layout compiles to
its clauses, each on the line its name stands on.
-/

namespace Flowchart

open Text

/-! ## Clauses -/

/-- An id. -/
structure Word where
  chars : List Char
  nonempty : chars ≠ []
  letters : ∀ c ∈ chars, c.isAlpha = true

/-- A text that can stand between quotes on one line. -/
structure Label where
  chars : List Char
  unquoted : '"' ∉ chars
  unbroken : ∀ c ∈ chars, isTerminator c = false

/-- The id that a string spells. -/
def Word.ofString (s : String) (nonempty : s.toList.isEmpty = false)
    (letters : s.toList.all Char.isAlpha = true) : Word where
  chars := s.toList
  nonempty := by simpa using nonempty
  letters := List.all_eq_true.1 letters

/-- The label that a string is. -/
def Label.ofString (s : String) (unquoted : s.toList.contains '"' = false)
    (unbroken : s.toList.any isTerminator = false) : Label where
  chars := s.toList
  unquoted := by simpa using unquoted
  unbroken := by simpa using unbroken

inductive Clause where
  | node (name : CallName) (isNode : name.isNode = true) (id : Word) (label : Label)
  | edge (source : Word) (label : Label) (target : Word)

/-- A kind of token and a value. -/
abbrev Lexeme := Kind × List Char

/-- What stands left and right of a label. -/
def CallName.frame : CallName → String × String
  | entity => ("[", "]")
  | database => ("[(", ")]")
  | queue => ("[[", "]]")
  | decision => ("\x7b", "\x7d")
  | rel => ("-->|", "|")

namespace Clause

def head : Clause → CallName
  | node name _ _ _ => name
  | edge _ _ _ => .rel

def arguments : Clause → List Lexeme
  | node _ _ id label => [(.identifier, id.chars), (.string, label.chars)]
  | edge source label target =>
    [(.identifier, source.chars), (.string, label.chars), (.identifier, target.chars)]

/-- The lexemes of a clause but for the closing parenthesis. -/
def lexemes (c : Clause) : List Lexeme :=
  (.identifier, c.head.text.toList) :: (.openParen, ['(']) :: c.arguments

/-- The flowchart line of a clause. -/
def drawing : Clause → String
  | node name _ id label =>
    String.ofList id.chars ++ name.frame.1 ++ String.ofList label.chars ++ name.frame.2
  | edge source label target =>
    String.ofList source.chars ++ CallName.rel.frame.1 ++ String.ofList label.chars ++
      CallName.rel.frame.2 ++ String.ofList target.chars

end Clause

/-! ## Layouts -/

def isGap (c : Char) : Bool := c == ' ' || c == '\t' || c == ',' || isTerminator c

/-- Lexemes with the gaps behind them, as text. -/
def itemsText (items : List (Lexeme × List Char)) : List Char :=
  items.flatMap fun i => i.1.1.write i.1.2 ++ i.2

/-- The number of the line that follows a text. -/
def lineAfter (before : List Char) : Int := 1 + breaks before

/-- The tokens of lexemes with the gaps behind them, each on its line. -/
def itemsTokens (before : List Char) : List (Lexeme × List Char) → List Token
  | [] => []
  | (l, g) :: items => ⟨l.1, String.ofList l.2, lineAfter before⟩ ::
      itemsTokens (before ++ (l.1.write l.2 ++ g)) items

/-- A clause as it is written: its lexemes with the gaps behind them, then the closing parenthesis,
the blanks behind it, and the gap that begins with the next line. -/
structure Spread where
  clause : Clause
  items : List (Lexeme × List Char)
  blanks : List Char
  below : List Char
  lexemes_eq : items.map (·.1) = clause.lexemes
  items_gap : ∀ i ∈ items, ∀ c ∈ i.2, isGap c = true
  blanks_blank : ∀ c ∈ blanks, c = ' ' ∨ c = '\t'
  below_gap : ∀ c ∈ below, isGap c = true
  below_break : ∀ c ∈ below.head?, isTerminator c = true

/-- A clause with the gaps behind its lexemes. -/
def Spread.ofGaps (clause : Clause) (gaps : List String) (blanks below : String)
    (enough : clause.lexemes.length ≤ gaps.length)
    (gaps_gap : gaps.all (·.toList.all isGap) = true)
    (blanks_blank : blanks.toList.all (fun c => c == ' ' || c == '\t') = true)
    (below_gap : below.toList.all isGap = true)
    (below_break : below.toList.head?.all isTerminator = true) : Spread where
  clause := clause
  items := clause.lexemes.zip (gaps.map String.toList)
  blanks := blanks.toList
  below := below.toList
  lexemes_eq := List.map_fst_zip (by simpa using enough)
  items_gap := by
    intro i hi
    obtain ⟨gap, hgap, heq⟩ := List.mem_map.1 (List.of_mem_zip hi).2
    rw [← heq]
    exact List.all_eq_true.1 (List.all_eq_true.1 gaps_gap gap hgap)
  blanks_blank := by simpa using blanks_blank
  below_gap := List.all_eq_true.1 below_gap
  below_break := by
    intro c hc
    rwa [Option.mem_def.1 hc] at below_break

namespace Spread

def text (s : Spread) : List Char := itemsText s.items ++ ')' :: (s.blanks ++ s.below)

/-- The statement of a clause that is written after a text. Its parameters stand behind the name
and the opening parenthesis. -/
def statement (before : List Char) (s : Spread) : Statement :=
  ⟨.call s.clause.head, lineAfter before, (itemsTokens before s.items).drop 2⟩

end Spread

/-- Clauses as they are written, with the gap before the first. -/
structure Layout where
  lead : List Char
  spreads : List Spread
  lead_gap : ∀ c ∈ lead, isGap c = true
  broken : ∀ s ∈ spreads.dropLast, s.below ≠ []

namespace Layout

def clauses (l : Layout) : List Clause := l.spreads.map (·.clause)

/-- The text before the clause with an index. -/
def before (l : Layout) (i : Nat) : List Char := l.lead ++ (l.spreads.take i).flatMap Spread.text

def source (l : Layout) : String := String.ofList (l.before l.spreads.length)

def statements (l : Layout) : List Statement := l.spreads.mapIdx fun i s => s.statement (l.before i)

end Layout

/-! ## Lexemes on one line -/

theorem not_isTerminator_of_isAlpha {c : Char} (h : c.isAlpha = true) : isTerminator c = false := by
  cases ht : isTerminator c with
  | false => rfl
  | true =>
    simp only [isTerminator, Bool.or_eq_true, beq_iff_eq] at ht
    rcases ht with ((((((((rfl | rfl) | rfl) | rfl) | rfl) | rfl) | rfl) | rfl) | rfl) | rfl <;>
      cases h

theorem separator_or_terminator {c : Char} (h : isGap c = true) :
    isSeparator c = true ∨ isTerminator c = true := by
  simp only [isGap, Bool.or_eq_true, beq_iff_eq] at h
  rcases h with ((rfl | rfl) | rfl) | h
  · exact .inl rfl
  · exact .inl rfl
  · exact .inl rfl
  · exact .inr h

theorem goesOn_gap {c : Char} (k : Kind) (h : isGap c = true) : k.goesOn c = false := by
  simp only [isGap, isTerminator, Bool.or_eq_true, beq_iff_eq] at h
  rcases h with ((rfl | rfl) | rfl) | ((((((((rfl | rfl) | rfl) | rfl) | rfl) | rfl) | rfl) | rfl) |
    rfl) | rfl <;> cases k <;> rfl

/-- A lexeme that can be written inside a call. -/
structure Writable (l : Lexeme) : Prop where
  admits : l.1.Admits l.2
  inside : l.1 ≠ .closeParen
  unbroken : ∀ c ∈ l.1.write l.2, isTerminator c = false

theorem writable_word {v : List Char} (hv : v ≠ []) (h : ∀ c ∈ v, c.isAlpha = true) :
    Writable (.identifier, v) :=
  ⟨⟨hv, h⟩, by simp, fun c hc => not_isTerminator_of_isAlpha (h c hc)⟩

theorem Word.writable (w : Word) : Writable (.identifier, w.chars) :=
  writable_word w.nonempty w.letters

theorem Label.writable (l : Label) : Writable (.string, l.chars) := by
  refine ⟨l.unquoted, by simp, fun c hc => ?_⟩
  have hc : c = '"' ∨ c ∈ l.chars ∨ c = '"' := by simpa [Kind.write] using hc
  rcases hc with rfl | hc | rfl
  · rfl
  · exact l.unbroken c hc
  · rfl

theorem CallName.writable (name : CallName) : Writable (.identifier, name.text.toList) := by
  cases name <;> exact writable_word (by simp [text]) (by simp [text])

namespace Clause

theorem writable (c : Clause) : ∀ l ∈ c.lexemes, Writable l := by
  have hopen : Writable (.openParen, ['(']) :=
    ⟨rfl, by simp, fun c hc => by rw [List.mem_singleton.1 hc]; rfl⟩
  have hargs : ∀ l ∈ c.arguments, Writable l := by
    cases c with
    | node name hn id label => simp [arguments, id.writable, label.writable]
    | edge source label target =>
      simp [arguments, source.writable, label.writable, target.writable]
  exact List.forall_mem_cons.2 ⟨c.head.writable, List.forall_mem_cons.2 ⟨hopen, hargs⟩⟩

/-- Neighbours are of different kinds, so that no two of them run together. -/
theorem kinds_chain (c : Clause) : (c.lexemes.map (·.1)).IsChain (· ≠ ·) := by
  cases c <;> simp [lexemes, arguments]

theorem arguments_kinds (c : Clause) : c.arguments.map (·.1) = c.head.signature := by
  obtain ⟨name, hn, id, label⟩ | ⟨source, label, target⟩ := c
  · cases name <;> first | rfl | cases hn
  · rfl

end Clause

/-! ## Tokens of a layout -/

section
variable {before cs : List Char} {ts : List Token} {items : List (Lexeme × List Char)}

/-- Whatever stops at a closing parenthesis and at the first lexeme stops at the items of a call. -/
theorem stops_items {p : Char → Bool} (hw : ∀ i ∈ items, Writable i.1) (hp : p ')' = false)
    (hi : ∀ i ∈ items.head?, Stops p (i.1.1.write i.1.2)) :
    Stops p (itemsText items ++ ')' :: cs) := by
  cases items with
  | nil => exact stops_cons.2 hp
  | cons i items =>
    have hne := Kind.write_ne_nil (hw i (by simp)).admits
    have hh : (itemsText (i :: items) ++ ')' :: cs).head? = (i.1.1.write i.1.2).head? := by
      rw [itemsText, List.flatMap_cons, List.append_assoc, List.append_assoc,
        List.head?_append_of_ne_nil _ hne]
    rw [Stops, hh]
    exact hi i rfl

theorem stops_isTerminator_items (hw : ∀ i ∈ items, Writable i.1) :
    Stops isTerminator (itemsText items ++ ')' :: cs) :=
  stops_items hw rfl fun i hi c hc =>
    (hw i (List.mem_of_mem_head? hi)).unbroken c (List.mem_of_mem_head? hc)

theorem lineAfter_unbroken {w : List Char} (hne : w ≠ []) (hw : ∀ c ∈ w, isTerminator c = false)
    (before g : List Char) :
    lineAfter (before ++ (w ++ g)) = lineAfter before + breaks g := by
  have hs : Stops isTerminator (w ++ g) := by
    intro c hc
    rw [List.head?_append_of_ne_nil _ hne] at hc
    exact hw c (List.mem_of_mem_head? hc)
  rw [lineAfter, lineAfter, breaks_append (uncut_of_stops hs), breaks_unbroken g hw]
  push_cast
  omega

theorem stops_goesOn_items {k : Kind} {g : List Char} (hw : ∀ i ∈ items, Writable i.1)
    (hg : ∀ c ∈ g, isGap c = true) (hk : (k :: items.map (·.1.1)).IsChain (· ≠ ·)) :
    Stops k.goesOn (g ++ (itemsText items ++ ')' :: cs)) := by
  cases g with
  | cons c g => exact stops_cons.2 (goesOn_gap k (hg c (by simp)))
  | nil =>
    refine stops_items hw (by cases k <;> rfl) fun i hi c hc => ?_
    obtain ⟨rest, rfl⟩ := List.head?_eq_some_iff.1 hi
    cases hgo : k.goesOn c with
    | false => rfl
    | true =>
      have hne := (List.isChain_cons_cons.1 hk).1
      exact (hne (Kind.eq_of_goesOn (hw i (by simp)).admits hc hgo)).elim

theorem map_itemsTokens (before : List Char) (items : List (Lexeme × List Char)) :
    (itemsTokens before items).map (fun t => (t.kind, t.value)) =
      items.map fun i => (i.1.1, String.ofList i.1.2) := by
  induction items generalizing before with
  | nil => rfl
  | cons i items ih => simp [itemsTokens, ih]

/-- The lexemes of a call give their tokens, whatever gaps stand between them. -/
theorem documentTokens_items (before : List Char) (hw : ∀ i ∈ items, Writable i.1)
    (hg : ∀ i ∈ items, ∀ c ∈ i.2, isGap c = true) (hk : (items.map (·.1.1)).IsChain (· ≠ ·))
    (h : documentTokens (lineAfter (before ++ itemsText items)) (')' :: cs) = .ok ts) :
    documentTokens (lineAfter before) (itemsText items ++ ')' :: cs) =
      .ok (itemsTokens before items ++ ts) := by
  induction items generalizing before with
  | nil => simpa [itemsText, itemsTokens] using h
  | cons i items ih =>
    obtain ⟨⟨k, v⟩, g⟩ := i
    obtain ⟨hl, hw⟩ := List.forall_mem_cons.1 hw
    obtain ⟨hgap, hg⟩ := List.forall_mem_cons.1 hg
    have htext : itemsText (((k, v), g) :: items) = k.write v ++ g ++ itemsText items := rfl
    -- from behind: the items that are left, the gap in front of them, the lexeme
    have hrest := ih (before ++ (k.write v ++ g)) hw hg hk.tail
      (by rwa [List.append_assoc, ← htext])
    rw [lineAfter_unbroken (Kind.write_ne_nil hl.admits) hl.unbroken] at hrest
    have hafter := documentTokens_gap (fun c hc => separator_or_terminator (hgap c hc))
      (uncut_of_stops (stops_isTerminator_items hw)) hrest
    rw [htext, List.append_assoc, List.append_assoc]
    exact documentTokens_lexeme hl.inside hl.admits hl.unbroken
      (stops_goesOn_items hw hgap hk) hafter

end

namespace Spread

theorem writable (s : Spread) : ∀ i ∈ s.items, Writable i.1 := fun i hi =>
  s.clause.writable i.1 (s.lexemes_eq ▸ List.mem_map_of_mem hi)

theorem kinds_chain (s : Spread) : (s.items.map (·.1.1)).IsChain (· ≠ ·) := by
  have h := s.clause.kinds_chain
  rwa [← s.lexemes_eq, List.map_map] at h

theorem stops_text (s : Spread) (cs : List Char) : Stops isTerminator (s.text ++ cs) := by
  rw [text, List.append_assoc]
  exact stops_isTerminator_items s.writable

def closing (before : List Char) (s : Spread) : Token :=
  ⟨.closeParen, ")", lineAfter (before ++ itemsText s.items)⟩

def tokens (before : List Char) (s : Spread) : List Token :=
  itemsTokens before s.items ++ [s.closing before]

theorem text_append (s : Spread) (cs : List Char) :
    s.text ++ cs = itemsText s.items ++ ')' :: (s.blanks ++ (s.below ++ cs)) := by
  simp [text]

theorem lineAfter_text (before : List Char) (s : Spread) :
    lineAfter (before ++ s.text) = lineAfter (before ++ itemsText s.items) + breaks s.below := by
  have hw : ∀ c ∈ ')' :: s.blanks, isTerminator c = false := by
    refine List.forall_mem_cons.2 ⟨rfl, fun c hc => ?_⟩
    rcases s.blanks_blank c hc with rfl | rfl <;> rfl
  have htext :
      before ++ s.text = before ++ itemsText s.items ++ ((')' :: s.blanks) ++ s.below) := by
    simp [text]
  rw [htext, lineAfter_unbroken (by simp) hw]

/-- A clause that is written after a text gives its tokens, and what follows it the rest. -/
theorem documentTokens_text (before : List Char) (s : Spread) {cs : List Char} {ts : List Token}
    (hcs : Stops isTerminator cs) (hb : s.below = [] → cs = [])
    (h : documentTokens (lineAfter (before ++ s.text)) cs = .ok ts) :
    documentTokens (lineAfter before) (s.text ++ cs) = .ok (s.tokens before ++ ts) := by
  rw [lineAfter_text] at h
  have hbelow := documentTokens_gap (fun c hc => separator_or_terminator (s.below_gap c hc))
    (uncut_of_stops hcs) h
  have hline : firstLine (s.below ++ cs) = [] := by
    cases hs : s.below with
    | nil => rw [hb hs]; rfl
    | cons c g => exact firstLine_break (s.below_break c (by rw [hs]; rfl))
  have hclose := documentTokens_close s.blanks_blank hline hbelow
  rw [text_append, tokens, List.append_assoc]
  exact documentTokens_items before s.writable s.items_gap s.kinds_chain hclose

/-- The parameters of a written clause are its arguments. -/
theorem statement_params (before : List Char) (s : Spread) :
    (s.statement before).params.map (fun p => (p.kind, p.value)) =
      s.clause.arguments.map fun a => (a.1, String.ofList a.2) := by
  have hitems := congrArg (List.map fun a : Lexeme => (a.1, String.ofList a.2)) s.lexemes_eq
  rw [List.map_map] at hitems
  rw [statement, List.map_drop, map_itemsTokens]
  exact congrArg (List.drop 2) hitems

/-- The tokens of a written clause are a call. -/
theorem exists_call (before : List Char) (s : Spread) :
    ∃ c : Call, c.tokens = s.tokens before ∧ c.statement = s.statement before := by
  obtain ⟨⟨l, g⟩, items, hi, rfl, hrest⟩ := List.map_eq_cons_iff.1 s.lexemes_eq
  obtain ⟨⟨l', g'⟩, args, rfl, rfl, -⟩ := List.map_eq_cons_iff.1 hrest
  have hkinds : (s.statement before).params.map (·.kind) = s.clause.head.signature := by
    have h := congrArg (List.map Prod.fst) (s.statement_params before)
    rw [List.map_map, List.map_map] at h
    exact h.trans s.clause.arguments_kinds
  have htokens : itemsTokens before s.items =
      ⟨.identifier, s.clause.head.text, lineAfter before⟩ ::
      ⟨.openParen, "(", lineAfter (before ++ (s.clause.head.text.toList ++ g))⟩ ::
      (s.statement before).params := by
    rw [statement, hi, itemsTokens, itemsTokens, String.ofList_toList]
    rfl
  refine ⟨⟨s.clause.head, ⟨.identifier, s.clause.head.text, lineAfter before⟩,
    ⟨.openParen, "(", lineAfter (before ++ (s.clause.head.text.toList ++ g))⟩,
    (s.statement before).params, s.closing before, rfl, rfl, rfl, hkinds, rfl⟩, ?_, rfl⟩
  rw [tokens, htokens]
  rfl

end Spread

/-- The tokens of clauses that are written one after the other. -/
def spreadsTokens (before : List Char) : List Spread → List Token
  | [] => []
  | s :: ss => s.tokens before ++ spreadsTokens (before ++ s.text) ss

def spreadsStatements (before : List Char) : List Spread → List Statement
  | [] => []
  | s :: ss => s.statement before :: spreadsStatements (before ++ s.text) ss

theorem documentTokens_spreads (before : List Char) (ss : List Spread)
    (h : ∀ s ∈ ss.dropLast, s.below ≠ []) :
    documentTokens (lineAfter before) (ss.flatMap Spread.text) = .ok (spreadsTokens before ss) := by
  induction ss generalizing before with
  | nil => rfl
  | cons s ss ih =>
    rw [List.flatMap_cons]
    have hrest : ∀ s ∈ ss.dropLast, s.below ≠ [] := by
      cases ss with
      | nil => simp
      | cons t ss => exact (List.forall_mem_cons.1 h).2
    refine s.documentTokens_text before ?_ ?_ (ih _ hrest)
    -- only the last clause may do without a line break, and nothing follows that one
    · cases ss with
      | nil => exact stops_nil
      | cons t ss => exact t.stops_text _
    · intro hs
      cases ss with
      | nil => rfl
      | cons t ss => exact (h s (by simp) hs).elim

theorem parse_spreads (before : List Char) (ss : List Spread) :
    parse (spreadsTokens before ss) = .ok (spreadsStatements before ss) := by
  induction ss generalizing before with
  | nil => exact parse_nil
  | cons s ss ih =>
    obtain ⟨c, hc, hs⟩ := s.exists_call before
    rw [spreadsTokens, ← hc, Call.parse_append, ih, hs]
    rfl

theorem mapIdx_statement (before : List Char) (ss : List Spread) :
    (ss.mapIdx fun i s => s.statement (before ++ (ss.take i).flatMap Spread.text)) =
      spreadsStatements before ss := by
  induction ss generalizing before with
  | nil => rfl
  | cons s ss ih =>
    rw [List.mapIdx_cons, spreadsStatements, ← ih]
    simp

/-! ## Compiling a layout -/

theorem Clause.line_arguments (c : Clause) :
    c.head.line (c.arguments.map fun a => String.ofList a.2) = .ok c.drawing := by
  obtain ⟨name, hn, id, label⟩ | ⟨source, label, target⟩ := c
  · cases name <;> first | rfl | cases hn
  · rfl

theorem Spread.draws (before : List Char) (s : Spread) :
    (s.statement before).Draws s.clause.drawing := by
  have hvalues := congrArg (List.map Prod.snd) (s.statement_params before)
  rw [List.map_map, List.map_map] at hvalues
  exact ⟨s.clause.head, rfl, by rw [← s.clause.line_arguments]; exact congrArg _ hvalues⟩

/-- The call and the parameters of a statement, apart from where they stand. -/
def Statement.content (s : Statement) : Head × List (Kind × String) :=
  (s.head, s.params.map fun p => (p.kind, p.value))

theorem Spread.statement_content (before : List Char) (s : Spread) :
    (s.statement before).content =
      (.call s.clause.head, s.clause.arguments.map fun a => (a.1, String.ofList a.2)) := by
  rw [Statement.content, s.statement_params before]
  rfl

namespace Layout

theorem tokenizeLines_source (l : Layout) :
    tokenizeLines (sourceLines l.source) = .ok (spreadsTokens l.lead l.spreads) := by
  have hlead := documentTokens_gap (fun c hc => separator_or_terminator (l.lead_gap c hc))
    (uncut_of_stops ?_) (documentTokens_spreads l.lead l.spreads l.broken)
  · simpa [source, sourceLines, before, documentTokens] using hlead
  · cases l.spreads with
    | nil => exact stops_nil
    | cons s ss => exact s.stops_text _

theorem parse_tokens (l : Layout) : parse (spreadsTokens l.lead l.spreads) = .ok l.statements := by
  rw [parse_spreads, statements, ← mapIdx_statement]
  rfl

end Layout

/-- Every layout compiles to its clauses, in order. Each of the statements stands on the line that
follows the text before its name. -/
theorem layout_compiles (l : Layout) :
    (∃ ts, tokenizeLines (sourceLines l.source) = .ok ts ∧ parse ts = .ok l.statements) ∧
    l.statements.map Statement.content =
      l.clauses.map (fun c => (.call c.head, c.arguments.map fun a => (a.1, String.ofList a.2))) ∧
    l.statements.map (·.line) =
      (List.range l.clauses.length).map (fun i => 1 + (breaks (l.before i) : Int)) ∧
    generate l.statements = .ok (l.clauses.map Clause.drawing) := by
  have hlen : (l.statements.map Statement.content).length = (l.clauses.map fun c =>
      (Head.call c.head, c.arguments.map fun a => (a.1, String.ofList a.2))).length := by
    simp [Layout.statements, Layout.clauses]
  refine ⟨⟨spreadsTokens l.lead l.spreads, l.tokenizeLines_source, l.parse_tokens⟩, ?_, ?_, ?_⟩
  · refine List.ext_getElem hlen fun i _ _ => ?_
    simpa [Layout.statements, Layout.clauses] using Spread.statement_content _ _
  · refine List.ext_getElem (by simpa using hlen) fun i _ _ => ?_
    simp [Layout.statements, Spread.statement, lineAfter]
  · refine generate_of_draws (List.forall₂_iff_get.2 ⟨by simpa using hlen, fun i _ _ => ?_⟩)
    simpa [Layout.statements, Layout.clauses] using Spread.draws _ _

/-- A queue and an edge from it, both spread over lines, with marks of the notation in the
labels. -/
def looseLayout : Layout :=
  let q : Word := .ofString "q" (by decide) (by decide)
  let work : Word := .ofString "Work" (by decide) (by decide)
  let marks : Label := .ofString "(a, b)" (by decide) (by decide)
  let bar : Label := .ofString "|" (by decide) (by decide)
  { lead := ",\r\n ".toList
    spreads :=
      [.ofGaps (.node .queue rfl q marks) ["\n", "", "\t", ","] " " "\x0b\t" (by decide) (by decide)
          (by decide) (by decide) (by decide),
        .ofGaps (.edge q bar work) ["", " ", ",", "\r\n", ""] "\t" "" (by decide) (by decide)
          (by decide) (by decide) (by decide)]
    lead_gap := List.all_eq_true.1 (by decide)
    broken := by simp [Spread.ofGaps] }

/-- The source of this layout, and what comes of it. -/
theorem layout_compiles_loosely :
    looseLayout.source = ",\r\n Queue\n(q\t\"(a, b)\",) \x0b\tRel( q,\"|\"\r\nWork)\t" ∧
      (∃ ts, tokenizeLines (sourceLines looseLayout.source) = .ok ts ∧
        parse ts = .ok looseLayout.statements) ∧
      looseLayout.statements.map (·.line) = [2, 4] ∧
      generate looseLayout.statements = .ok ["q[[(a, b)]]", "q-->|||Work"] := by
  obtain ⟨hparse, -, hlines, hgenerate⟩ := layout_compiles looseLayout
  refine ⟨by decide +kernel, hparse, ?_, ?_⟩
  · rw [hlines]
    decide +kernel
  · rw [hgenerate]
    decide +kernel

end Flowchart

import Flowchart.Proofs.Lexical

/-!
# Where scanning stops

`Passes before rest` says that `before` is read to its end when `rest` follows
it, and `Refused rest cause` that no lexeme can be read at `rest`. A text that
fails to scan is a passage in front of a refusal. A passage looks at no more
than the first character of what follows it, so one can say at which character
the text becomes hopeless, and which texts are only incomplete.
-/

namespace Flowchart

/-! ## Refusals -/

/-- The characters with which a gap or a lexeme begins. -/
def beginsLexeme (c : Char) : Bool :=
  isSeparator c || c.isDigit || c.isAlpha || c == '(' || c == ')' || c == '"'

/-- The texts at which no lexeme can be read, and why. -/
inductive Refused : List Char → Cause → Prop where
  | stray {c : Char} {cs : List Char} : beginsLexeme c = false →
      Refused (c :: cs) (.strayCharacter (some c))
  | trailing {bs cs : List Char} {c : Char} : (∀ b ∈ bs, isBlank b = true) → isBlank c = false →
      Refused (')' :: (bs ++ c :: cs)) (.trailingCharacter c)
  | unterminated {v : List Char} : '"' ∉ v → Refused ('"' :: v) .unterminatedString

theorem readString_unterminated {v : List Char} (hv : '"' ∉ v) :
    readString v = { rest := [], fault := some .unterminatedString } := by
  have hd : v.dropWhile (· != '"') = [] := by
    refine List.dropWhile_eq_nil_iff.2 fun c hc => ?_
    rw [bne_iff_ne]
    rintro rfl
    exact hv hc
  rw [readString, hd]

theorem readTrailing_run {bs cs : List Char} {c : Char} (hb : ∀ b ∈ bs, isBlank b = true)
    (hc : isBlank c = false) :
    readTrailing (bs ++ c :: cs) = { rest := cs, fault := some (.trailingCharacter c) } := by
  rw [readTrailing, dropWhile_run hb (stops_cons.2 hc)]

theorem next_stray {c : Char} {cs : List Char} (h : beginsLexeme c = false) :
    next (c :: cs) = { rest := c :: cs, fault := some (.strayCharacter (some c)) } := by
  simp only [beginsLexeme, isSeparator, Bool.or_eq_false_iff] at h
  obtain ⟨⟨⟨⟨⟨⟨hblank, hcomma⟩, hdigit⟩, hletter⟩, hopen⟩, hclose⟩, hquote⟩ := h
  simp [next, hblank, hcomma, hdigit, hletter, hopen, hclose, hquote]

theorem Refused.next_fault {cs : List Char} {cause : Cause} (h : Refused cs cause) :
    (next cs).fault = some cause := by
  cases h with
  | stray hc => rw [next_stray hc]
  | trailing hb hc =>
    show (readTrailing _).fault = _
    rw [readTrailing_run hb hc]
  | unterminated hv =>
    show (readString _).fault = _
    rw [readString_unterminated hv]

theorem Refused.stage_eq {cs : List Char} {cause : Cause} (h : Refused cs cause) :
    cause.stage = .scanning := by
  cases h <;> rfl

theorem Refused.kind_eq {cs : List Char} {cause : Cause} (h : Refused cs cause) :
    cause.kind = .unexpectedToken := by
  cases h <;> rfl

/-- Where `next` fails, the text is refused. -/
theorem refused_of_next {c : Char} {cs : List Char} {cause : Cause}
    (h : (next (c :: cs)).fault = some cause) : Refused (c :: cs) cause := by
  by_cases hclose : c = ')'
  · subst hclose
    replace h : (readTrailing cs).fault = some cause := h
    obtain ⟨bs, rest, rfl, hb, hstop⟩ := exists_run isBlank cs
    cases rest with
    | nil => rw [readTrailing, dropWhile_run hb hstop] at h; cases h
    | cons d rest =>
      rw [readTrailing_run hb (stops_cons.1 hstop)] at h
      cases h
      exact .trailing hb (stops_cons.1 hstop)
  by_cases hquote : c = '"'
  · subst hquote
    replace h : (readString cs).fault = some cause := h
    obtain ⟨v, rest, rfl, hrun, hstop⟩ := exists_run (· != '"') cs
    have hv : '"' ∉ v := fun hmem => absurd (hrun _ hmem) (by simp)
    cases rest with
    | nil =>
      rw [List.append_nil] at h ⊢
      rw [readString_unterminated hv] at h
      cases h
      exact .unterminated hv
    | cons d rest =>
      obtain rfl : d = '"' := by simpa using hstop
      rw [readString_run hv] at h
      cases h
  by_cases hsep : isSeparator c = true
  · rw [next_separator hsep] at h; cases h
  by_cases hdigit : c.isDigit = true
  · rw [next_digit hdigit] at h; cases h
  by_cases hletter : c.isAlpha = true
  · rw [next_letter hletter] at h; cases h
  by_cases hopen : c = '('
  · subst hopen; cases h
  have hnone : beginsLexeme c = false := by
    simp [beginsLexeme, hclose, hquote, hsep, hdigit, hletter, hopen]
  rw [next_stray hnone] at h
  cases h
  exact .stray hnone

/-! ## Passages -/

/-- The text `before` is read to its end when `rest` follows it. No closing parenthesis is read on
the way: everything behind one belongs to its step. -/
inductive Passes : List Char → List Char → Prop where
  | nil {rest : List Char} : Passes [] rest
  | separator {c : Char} {before rest : List Char} : isSeparator c = true → Passes before rest →
      Passes (c :: before) rest
  | lexeme {k : Kind} {v before rest : List Char} : k ≠ .closeParen → k.Admits v →
      Stops k.goesOn (before ++ rest) → Passes before rest → Passes (k.write v ++ before) rest

section
variable {before rest : List Char}

theorem Passes.scan_fault (h : Passes before rest) (line : Int) :
    (scan line (before ++ rest)).fault = (scan line rest).fault := by
  induction h with
  | nil => rfl
  | separator hc _ ih =>
    rw [List.cons_append, scan_of_reads line (.separator hc)]
    exact ih
  | lexeme hk hv hstop _ ih =>
    rw [List.append_assoc, scan_of_reads line (.lexeme hk hv hstop)]
    exact ih

/-- A passage stays one when less follows it, or more behind the same first character. -/
theorem Passes.change_rest (h : Passes before rest) {rest' : List Char}
    (hhead : ∀ c ∈ rest'.head?, c ∈ rest.head?) : Passes before rest' := by
  induction h with
  | nil => exact .nil
  | separator hc _ ih => exact .separator hc (ih hhead)
  | @lexeme k v before rest hk hv hstop _ ih =>
    refine .lexeme hk hv (fun c hc => hstop c ?_) (ih hhead)
    cases before with
    | nil => exact hhead c hc
    | cons d before => exact hc

theorem Passes.accepted (h : Passes before rest) (line : Int) :
    (scan line before).fault = none := by
  have hpass : Passes before [] := h.change_rest (by simp)
  have hscan := hpass.scan_fault line
  rwa [List.append_nil, scan_nil] at hscan

end

/-- A text that fails to scan is a passage in front of a refusal. -/
theorem exists_passage {line : Int} {cs : List Char} {cause : Cause}
    (h : (scan line cs).fault = some cause) :
    ∃ before rest, cs = before ++ rest ∧ Passes before rest ∧ Refused rest cause := by
  induction cs using scan.induct line with
  | case1 cs hc =>
    obtain rfl : cs = [] := by simpa using hc
    rw [scan_nil] at h; cases h
  | case2 cs _ _ hf ih =>
    have hr := reads_next hf
    rw [scan_of_reads line hr] at h
    obtain ⟨before, rest, hcut, hpass, href⟩ := ih h
    generalize (next cs).rest = left, (next cs).token = x at hr hcut
    cases hr with
    | @separator c _ hc => exact ⟨c :: before, rest, by rw [hcut]; rfl, .separator hc hpass, href⟩
    | @lexeme k v _ hk hv hstop =>
      rw [hcut] at hstop
      exact ⟨k.write v ++ before, rest, by rw [hcut, List.append_assoc],
        .lexeme hk hv hstop hpass, href⟩
    | close hb =>
      -- nothing is left behind a closing parenthesis, so nothing is refused there
      obtain ⟨-, rfl⟩ := List.append_eq_nil_iff.1 hcut.symm
      cases href
  | case3 cs hc _ cause' hf =>
    cases cs with
    | nil => simp at hc
    | cons c cs =>
      rw [scan_of_fault line (List.cons_ne_nil _ _) hf] at h
      cases h
      exact ⟨[], c :: cs, rfl, .nil, refused_of_next hf⟩

/-! ## The first hopeless character -/

theorem Refused.scan_fault {cs : List Char} {cause : Cause} (h : Refused cs cause) (line : Int) :
    (scan line cs).fault = some cause := by
  have hne : cs ≠ [] := by
    rintro rfl
    cases h
  rw [scan_of_fault line hne h.next_fault]

/-- Behind `before`, the character `c` makes a text hopeless: all is well without it, and with it
the scanner fails for one cause, whatever follows. -/
structure DeadEnd (line : Int) (before : List Char) (c : Char) (cause : Cause) : Prop where
  accepted : (scan line before).fault = none
  rejected : ∀ more, (scan line (before ++ c :: more)).fault = some cause

section
variable {line : Int} {before rest : List Char}

theorem Passes.deadEnd_stray (h : Passes before rest) {c : Char} (hc : c ∈ rest.head?)
    (hnone : beginsLexeme c = false) : DeadEnd line before c (.strayCharacter (some c)) where
  accepted := h.accepted line
  rejected more := by
    have hpass : Passes before (c :: more) := h.change_rest (by simpa using hc)
    rw [hpass.scan_fault line]
    exact (Refused.stray hnone).scan_fault line

theorem Passes.deadEnd_trailing (h : Passes before rest) (hclose : ')' ∈ rest.head?)
    {bs : List Char} {c : Char} (hb : ∀ b ∈ bs, isBlank b = true) (hc : isBlank c = false) :
    DeadEnd line (before ++ ')' :: bs) c (.trailingCharacter c) where
  accepted := by
    have hpass : Passes before (')' :: bs) := h.change_rest (by simpa using hclose)
    rw [hpass.scan_fault line, scan_of_reads line (.close hb), scan_nil]
  rejected more := by
    have hpass : Passes before (')' :: (bs ++ c :: more)) := h.change_rest (by simpa using hclose)
    rw [List.append_assoc, List.cons_append, hpass.scan_fault line]
    exact (Refused.trailing hb hc).scan_fault line

/-- A string that is not closed can be closed. -/
theorem Passes.accepted_closed {v : List Char} (h : Passes before ('"' :: v)) (hv : '"' ∉ v) :
    (scan line (before ++ '"' :: v ++ ['"'])).fault = none := by
  have hpass : Passes before (Kind.string.write v ++ []) := h.change_rest (by simp [Kind.write])
  have hread : Reads (Kind.string.write v ++ []) (some (.string, v)) [] :=
    .lexeme (by decide) hv stops_nil
  have htext : before ++ '"' :: v ++ ['"'] = before ++ (Kind.string.write v ++ []) := by
    simp [Kind.write]
  rw [htext, hpass.scan_fault line, scan_of_reads line hread, scan_nil]

/-- A text that fails to scan has a dead end, at the character that is reported, or ends within a
string. -/
theorem exists_deadEnd {cs : List Char} {cause : Cause} (h : (scan line cs).fault = some cause) :
    (∃ before c after, cs = before ++ c :: after ∧ cause.text? = some (String.singleton c) ∧
      DeadEnd line before c cause) ∨
    (cause = .unterminatedString ∧ (scan line (cs ++ ['"'])).fault = none) := by
  obtain ⟨before, rest, rfl, hpass, href⟩ := exists_passage h
  cases href with
  | @stray c after hnone =>
    exact .inl ⟨before, c, after, rfl, rfl, hpass.deadEnd_stray rfl hnone⟩
  | @trailing bs after c hb hc =>
    exact .inl ⟨before ++ ')' :: bs, c, after, by simp, rfl, hpass.deadEnd_trailing rfl hb hc⟩
  | unterminated hv => exact .inr ⟨rfl, hpass.accepted_closed hv⟩

end

/-! ## Lines -/

theorem tokenize_eq_error_iff {l : SourceLine} {d : Diagnostic} :
    tokenize l = .error d ↔
      d.line = l.number ∧ (scan l.number l.text.toList).fault = some d.cause := by
  obtain ⟨line, cause⟩ := d
  cases hf : (scan l.number l.text.toList).fault with
  | none => simp [tokenize, hf]
  | some found => simp [tokenize, hf, eq_comm]

theorem exists_tokenize_iff {l : SourceLine} :
    (∃ ts, tokenize l = .ok ts) ↔ (scan l.number l.text.toList).fault = none := by
  cases hf : (scan l.number l.text.toList).fault with
  | none => simp [tokenize, hf]
  | some found => simp [tokenize, hf]

/-- A line that fails to scan fails at the first character that nothing can repair: the text
before it is accepted, and no text that goes on with it is. Otherwise the line ends within a string,
and is accepted once the string is closed. -/
theorem tokenize_fails_at_dead_end (text : String) (line : Int) (d : Diagnostic)
    (h : tokenize ⟨text, line⟩ = .error d) :
    d.line = line ∧ d.cause.stage = .scanning ∧ d.cause.kind = .unexpectedToken ∧
    ((∃ (before : String) (c : Char) (after : String),
        text = before ++ String.singleton c ++ after ∧
        d.cause.text? = some (String.singleton c) ∧
        (∃ ts, tokenize ⟨before, line⟩ = .ok ts) ∧
        ∀ more : String, tokenize ⟨before ++ String.singleton c ++ more, line⟩ = .error d) ∨
      (d.cause.message = "Unterminated string literal" ∧ d.cause.text? = some "\"" ∧
        ∃ ts, tokenize ⟨text ++ "\"", line⟩ = .ok ts)) := by
  obtain ⟨hline, hfault⟩ := tokenize_eq_error_iff.1 h
  obtain ⟨_, _, -, -, href⟩ := exists_passage hfault
  refine ⟨hline, href.stage_eq, href.kind_eq, ?_⟩
  rcases exists_deadEnd hfault with ⟨before, c, after, hcut, htext, hdead⟩ | ⟨hcause, hclosed⟩
  · refine .inl ⟨String.ofList before, c, String.ofList after, ?_, htext, ?_, fun more => ?_⟩
    · apply String.toList_injective
      simpa using hcut
    · rw [exists_tokenize_iff]
      simpa using hdead.accepted
    · refine tokenize_eq_error_iff.2 ⟨hline, ?_⟩
      simpa using hdead.rejected more.toList
  · refine .inr ⟨by rw [hcause]; rfl, by rw [hcause]; rfl, ?_⟩
    rw [exists_tokenize_iff]
    simpa using hclosed

/-- A comma behind a closing parenthesis, and before it a string that holds what would be refused
outside. -/
theorem tokenize_fails_at_dead_end_behind_close :
    let d : Diagnostic := ⟨7, .trailingCharacter ','⟩
    tokenize ⟨"Queue(q \"#),\") \t,#", 7⟩ = .error d ∧
    ∃ before after, "Queue(q \"#),\") \t,#" = before ++ String.singleton ',' ++ after ∧
      (∃ ts, tokenize ⟨before, 7⟩ = .ok ts) ∧
      ∀ more, tokenize ⟨before ++ String.singleton ',' ++ more, 7⟩ = .error d := by
  intro d
  have h : tokenize ⟨"Queue(q \"#),\") \t,#", 7⟩ = .error d := by decide +kernel
  refine ⟨h, ?_⟩
  obtain ⟨-, -, -, ⟨before, c, after, hcut, htext, hrest⟩ | ⟨-, htext, -⟩⟩ :=
    tokenize_fails_at_dead_end _ _ _ h
  · have hc : String.singleton ',' = String.singleton c := Option.some.inj htext
    rw [hc]
    exact ⟨before, after, hcut, hrest⟩
  · exact absurd htext (by decide)

end Flowchart

import Flowchart.Proofs.Calls

/-!
# The grammar of token streams

A `Sentence` is a token stream cut into complete calls and the stray tokens
around them. The parser accepts exactly the sentences and gives one statement
for each call. A stream can be cut in one way only.
-/

namespace Flowchart

/-- A complete call. -/
structure Call where
  head : CallName
  name : Token
  opening : Token
  params : List Token
  closing : Token
  name_kind : name.kind = .identifier
  name_value : name.value = head.text
  opening_kind : opening.kind = .openParen
  params_kinds : params.map (·.kind) = head.signature
  closing_kind : closing.kind = .closeParen

/-- Tokens that open no call. -/
abbrev Strays := { ts : List Token // ∀ t ∈ ts, t.kind ≠ .identifier }

structure Sentence where
  lead : Strays
  calls : List (Call × Strays)

namespace Call

def tokens (c : Call) : List Token := c.name :: c.opening :: (c.params ++ [c.closing])

def statement (c : Call) : Statement := ⟨.call c.head, c.name.line, c.params⟩

theorem callRun (c : Call) (ts : List Token) :
    CallRun c.name (c.opening :: (c.params ++ c.closing :: ts)) (.ok c.statement) ts :=
  .complete (CallName.ofText?_eq_some_iff.2 c.name_value) c.opening_kind c.closing_kind
    c.params_kinds

/-- What reads as a call is one. -/
theorem exists_of_callRun {name : Token} {ts left : List Token} {s : Statement}
    (hk : name.kind = .identifier) (h : CallRun name ts (.ok s) left) :
    ∃ c : Call, c.tokens ++ left = name :: ts ∧ c.statement = s := by
  cases h with
  | complete hn ho hc hp =>
    exact ⟨⟨_, name, _, _, _, hk, CallName.ofText?_eq_some_iff.1 hn, ho, hp, hc⟩, by simp [tokens],
      rfl⟩

theorem parse_append (c : Call) (ts : List Token) :
    parse (c.tokens ++ ts) = (parse ts).map (c.statement :: ·) := by
  simpa [tokens] using parse_of_ok c.name_kind (c.callRun ts)

/-- The first call of a stream is determined by the stream. -/
theorem eq_of_append_eq {c d : Call} {xs ys : List Token} (h : c.tokens ++ xs = d.tokens ++ ys) :
    c = d ∧ xs = ys := by
  obtain ⟨f, n, o, ps, t, hn, hv, ho, hp, ht⟩ := c
  obtain ⟨f', n', o', ps', t', hn', hv', ho', hp', ht'⟩ := d
  simp only [tokens, List.cons_append, List.append_assoc, List.cons.injEq, List.nil_append] at h
  obtain ⟨rfl, rfl, h⟩ := h
  have hstop (u : Token) (us : List Token) (hu : u.kind = .closeParen) :
      Stops (fun p : Token => p.kind.isParameter) (u :: us) := by simp [hu, Kind.isParameter]
  obtain ⟨rfl, hrest⟩ := run_unique (isParameter_of_fits hp) (hstop t xs ht)
    (isParameter_of_fits hp') (hstop t' ys ht') h
  obtain ⟨rfl, rfl⟩ := List.cons.inj hrest
  obtain rfl := CallName.text_injective (hv.symm.trans hv')
  exact ⟨rfl, rfl⟩

end Call

theorem parse_strays (s : Strays) (ts : List Token) : parse (s.1 ++ ts) = parse ts := by
  obtain ⟨ss, hs⟩ := s
  induction ss with
  | nil => rfl
  | cons t ss ih =>
    show parse (t :: (ss ++ ts)) = _
    rw [parse_stray (hs t (by simp)), ih fun u hu => hs u (by simp [hu])]

namespace Sentence

def callTokens (calls : List (Call × Strays)) : List Token :=
  calls.flatMap fun c => c.1.tokens ++ c.2.1

def tokens (d : Sentence) : List Token := d.lead.1 ++ callTokens d.calls

def statements (d : Sentence) : List Statement := d.calls.map (·.1.statement)

theorem callTokens_cons (c : Call) (s : Strays) (calls : List (Call × Strays)) :
    callTokens ((c, s) :: calls) = c.tokens ++ (s.1 ++ callTokens calls) := by
  simp [callTokens]

/-- What follows a sentence is parsed as if it stood alone. -/
theorem parse_append (d : Sentence) (ts : List Token) :
    parse (d.tokens ++ ts) = (parse ts).map (d.statements ++ ·) := by
  obtain ⟨lead, calls⟩ := d
  rw [tokens, List.append_assoc, parse_strays]
  induction calls with
  | nil => show parse ts = _; cases parse ts <;> rfl
  | cons c calls ih =>
    rw [callTokens_cons, List.append_assoc, List.append_assoc, Call.parse_append, parse_strays, ih]
    cases parse ts <;> rfl

theorem parse_tokens (d : Sentence) : parse d.tokens = .ok d.statements := by
  have h := d.parse_append []
  simpa [parse_nil, Except.map] using h

theorem exists_of_parse {ts : List Token} {ss : List Statement} (h : parse ts = .ok ss) :
    ∃ d : Sentence, d.tokens = ts ∧ d.statements = ss := by
  induction ts using parse_induction generalizing ss with
  | nil =>
    rw [parse_nil] at h; cases h
    exact ⟨⟨⟨[], by simp⟩, []⟩, rfl, rfl⟩
  | stray t ts ht ih =>
    rw [parse_stray ht] at h
    obtain ⟨d, rfl, rfl⟩ := ih h
    exact ⟨⟨⟨t :: d.lead.1, List.forall_mem_cons.2 ⟨ht, d.lead.2⟩⟩, d.calls⟩, rfl, rfl⟩
  | error t ts e left ht hr => rw [parse_of_error ht hr] at h; cases h
  | ok t ts s left ht hr ih =>
    obtain ⟨c, hc, rfl⟩ := Call.exists_of_callRun ht hr
    rw [parse_of_ok ht hr] at h
    cases hp : parse left with
    | error e => rw [hp] at h; cases h
    | ok rest =>
      rw [hp] at h; cases h
      obtain ⟨d, rfl, rfl⟩ := ih hp
      refine ⟨⟨⟨[], by simp⟩, (c, d.lead) :: d.calls⟩, ?_, rfl⟩
      rw [← hc]; exact callTokens_cons c d.lead d.calls

/-- The stray tokens in front of calls are all up to the next identifier. -/
theorem strays_unique {s s' : Strays} {calls calls' : List (Call × Strays)}
    (h : s.1 ++ callTokens calls = s'.1 ++ callTokens calls') :
    s = s' ∧ callTokens calls = callTokens calls' := by
  have hstray (s : Strays) : ∀ t ∈ s.1, (t.kind != .identifier) = true := by simpa using s.2
  have hstop (calls : List (Call × Strays)) :
      Stops (fun t : Token => t.kind != .identifier) (callTokens calls) := by
    cases calls with
    | nil => exact stops_nil
    | cons c calls => simp [callTokens, Call.tokens, c.1.name_kind]
  obtain ⟨hs, hc⟩ := run_unique (hstray s) (hstop calls) (hstray s') (hstop calls') h
  exact ⟨Subtype.ext hs, hc⟩

theorem callTokens_injective : Function.Injective callTokens := by
  intro calls
  induction calls with
  | nil =>
    intro calls' h
    cases calls' with
    | nil => rfl
    | cons c' calls' => simp [callTokens, Call.tokens] at h
  | cons c calls ih =>
    intro calls' h
    cases calls' with
    | nil => simp [callTokens, Call.tokens] at h
    | cons c' calls' =>
      rw [callTokens_cons, callTokens_cons] at h
      obtain ⟨hc, hrest⟩ := Call.eq_of_append_eq h
      obtain ⟨hs, hrest⟩ := strays_unique hrest
      rw [ih hrest, Prod.ext hc hs]

/-- A token stream can be cut in one way only. -/
theorem tokens_injective : Function.Injective tokens := by
  rintro ⟨s, calls⟩ ⟨s', calls'⟩ h
  obtain ⟨hs, hc⟩ := strays_unique h
  exact congrArg₂ mk hs (callTokens_injective hc)

end Sentence

/-- The parser accepts exactly the sentences, and a stream is a sentence in at most one way. -/
theorem parse_eq_ok_iff :
    (∀ (ts : List Token) (ss : List Statement),
      parse ts = .ok ss ↔ ∃ d : Sentence, d.tokens = ts ∧ d.statements = ss) ∧
    Function.Injective Sentence.tokens := by
  refine ⟨fun ts ss => ⟨Sentence.exists_of_parse, ?_⟩, Sentence.tokens_injective⟩
  rintro ⟨d, rfl, rfl⟩
  exact d.parse_tokens

end Flowchart

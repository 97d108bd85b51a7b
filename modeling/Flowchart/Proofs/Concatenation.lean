import Flowchart.Build
import Flowchart.Proofs.DeadEnds
import Flowchart.Proofs.Document
import Flowchart.Proofs.Generation
import Flowchart.Proofs.Relabel

/-!
# Concatenating sources

A source that ends its last line can be followed by another one. The lines of
both are scanned before any statement is parsed, so a fault of scanning in
either comes first. Statements and diagnostics of the second source move down
by the lines of the first.
-/

namespace Flowchart

open Text

/-! ## Tokens -/

/-- The fault is that the input ends too early. -/
def Cause.AtEnd (c : Cause) : Prop :=
  c.kind = .unterminatedCall ∨ c.kind = .expectedOpen ∧ c.text? = none

/-- A call that does not fail at the end of the input reads the same whatever follows. -/
theorem CallRun.append {name : Token} {ts left : List Token} {r : Except Diagnostic Statement}
    (h : CallRun name ts r left) (hr : ∀ d, r = .error d → ¬d.cause.AtEnd) (us : List Token) :
    CallRun name (ts ++ us) r (left ++ us) := by
  cases h with
  | unknown hn => exact .unknown hn
  | noOpen hn => exact (hr _ rfl (.inr ⟨rfl, rfl⟩)).elim
  | notOpen hn ho => exact .notOpen hn ho
  | unterminated hn ho hp => exact (hr _ rfl (.inl rfl)).elim
  | unexpected hn ho hp ht hc =>
    rw [List.cons_append, List.append_assoc]; exact .unexpected hn ho hp ht hc
  | misfit hn ho hp hc hm =>
    rw [List.cons_append, List.append_assoc]; exact .misfit hn ho hp hc hm
  | complete hn ho hc hk =>
    rw [List.cons_append, List.append_assoc]; exact .complete hn ho hc hk

theorem parse_append_of_ok {xs : List Token} {ss : List Statement} (h : parse xs = .ok ss)
    (ys : List Token) : parse (xs ++ ys) = (parse ys).map (ss ++ ·) := by
  obtain ⟨d, rfl, rfl⟩ := Sentence.exists_of_parse h
  exact d.parse_append ys

/-- A fault that is not due to the end of the input stays, whatever follows. -/
theorem parse_append_of_error {xs : List Token} {d : Diagnostic} (h : parse xs = .error d)
    (hd : ¬d.cause.AtEnd) (ys : List Token) : parse (xs ++ ys) = .error d := by
  induction xs using parse_induction generalizing d with
  | nil => rw [parse_nil] at h; cases h
  | stray t ts ht ih => rw [parse_stray ht] at h; rw [List.cons_append, parse_stray ht, ih h hd]
  | error t ts e left ht hr =>
    rw [parse_of_error ht hr] at h; cases h
    exact parse_of_error ht (hr.append (by rintro _ ⟨⟩; exact hd) ys)
  | ok t ts s left ht hr ih =>
    rw [parse_of_ok ht hr] at h
    cases hp : parse left with
    | ok rest => rw [hp] at h; cases h
    | error e =>
      rw [hp] at h; cases h
      rw [List.cons_append, parse_of_ok ht (hr.append (by rintro _ ⟨⟩) ys), ih hp hd]
      rfl

/-! ## Stages -/

theorem stage_of_wrongKind? {name : CallName} {i : Nat} {ps : List Token} {ks : List Kind}
    {cause : Cause} (h : wrongKind? name i ps ks = some cause) : cause.stage = .parsing := by
  induction ps generalizing i ks with
  | nil => cases h
  | cons p ps ih =>
    cases ks with
    | nil => cases h
    | cons k ks =>
      rw [wrongKind?] at h
      split at h
      · exact ih h
      · cases h; rfl

theorem stage_of_misfit? {name : CallName} {ps : List Token} {cause : Cause}
    (h : misfit? name ps = some cause) : cause.stage = .parsing := by
  unfold misfit? at h
  split at h
  · exact stage_of_wrongKind? h
  · cases h; rfl

theorem CallRun.stage_of_error {name : Token} {ts left : List Token} {d : Diagnostic}
    (h : CallRun name ts (.error d) left) : d.cause.stage = .parsing := by
  cases h with
  | misfit _ _ _ _ hm => exact stage_of_misfit? hm
  | _ => rfl

theorem stage_of_parse {ts : List Token} {d : Diagnostic} (h : parse ts = .error d) :
    d.cause.stage = .parsing := by
  induction ts using parse_induction with
  | nil => rw [parse_nil] at h; cases h
  | stray t ts ht ih => rw [parse_stray ht] at h; exact ih h
  | error t ts e left ht hr =>
    rw [parse_of_error ht hr] at h; cases h
    exact hr.stage_of_error
  | ok t ts s left ht hr ih =>
    rw [parse_of_ok ht hr] at h
    cases hp : parse left with
    | ok rest => rw [hp] at h; cases h
    | error e => rw [hp] at h; cases h; exact ih hp

theorem stage_of_tokenize {l : SourceLine} {d : Diagnostic} (h : tokenize l = .error d) :
    d.cause.stage = .scanning := by
  obtain ⟨_, _, -, -, href⟩ := exists_passage (tokenize_eq_error_iff.1 h).2
  exact href.stage_eq

theorem stage_of_tokenizeLines {ls : List SourceLine} {d : Diagnostic}
    (h : tokenizeLines ls = .error d) : d.cause.stage = .scanning := by
  obtain ⟨l, -, hl⟩ := exists_line_of_fault h
  exact stage_of_tokenize hl

/-! ## Lines -/

/-- A document scans when all of its lines do. -/
theorem exists_tokenizeLines_iff (ls : List SourceLine) :
    (∃ ts, tokenizeLines ls = .ok ts) ↔ ∀ l ∈ ls, ∃ ts, tokenize l = .ok ts := by
  induction ls with
  | nil => simp [tokenizeLines]
  | cons l ls ih =>
    rw [List.forall_mem_cons, ← ih]
    simp only [tokenizeLines_cons_ok]
    constructor
    · rintro ⟨_, us, vs, hu, hv, -⟩; exact ⟨⟨us, hu⟩, ⟨vs, hv⟩⟩
    · rintro ⟨⟨us, hu⟩, ⟨vs, hv⟩⟩; exact ⟨_, us, vs, hu, hv, rfl⟩

theorem numberLines_relabel (n k : Int) (ls : List (List Char)) :
    numberLines (n + k) ls = (numberLines n ls).map (SourceLine.relabel (· + k)) := by
  induction ls generalizing n with
  | nil => rfl
  | cons l ls ih =>
    simp only [numberLines, List.map_cons, SourceLine.relabel, ← ih]
    congr 2; omega

/-- The first source is empty or ends its last line, and the second one does not take part in its
last terminator. -/
structure Stacked (a b : String) : Prop where
  ended : ∀ c ∈ a.toList.getLast?, isTerminator c = true
  uncut : Uncut a.toList b.toList

/-- The number of lines of a source. -/
def lineCount (text : String) : Int := (sourceLines text).length

theorem length_numberLines (n : Int) (ls : List (List Char)) :
    (numberLines n ls).length = ls.length := by
  induction ls generalizing n with
  | nil => rfl
  | cons l ls ih => simp [numberLines, ih]

theorem Stacked.sourceLines_append {a b : String} (h : Stacked a b) :
    sourceLines (a ++ b) =
      sourceLines a ++ (sourceLines b).map (SourceLine.relabel (· + lineCount a)) := by
  rw [sourceLines, String.toList_append, lines_append h.ended h.uncut, numberLines_append,
    numberLines_relabel, lineCount]
  simp [sourceLines, length_numberLines]

/-! ## Sources -/

/-- Every line of a source scans. -/
def Scans (text : String) : Prop := ∀ l ∈ sourceLines text, ∃ ts, tokenize l = .ok ts

theorem Scans.exists_tokens {text : String} (h : Scans text) :
    ∃ ts, tokenizeLines (sourceLines text) = .ok ts :=
  (exists_tokenizeLines_iff _).2 h

theorem exists_fault_of_not_scans {text : String} (h : ¬Scans text) :
    ∃ d, tokenizeLines (sourceLines text) = .error d ∧ d.cause.stage = .scanning := by
  cases ht : tokenizeLines (sourceLines text) with
  | ok ts => exact absurd ((exists_tokenizeLines_iff _).1 ⟨ts, ht⟩) h
  | error d => exact ⟨d, rfl, stage_of_tokenizeLines ht⟩

section
variable {a b : String}

theorem Stacked.tokenizeLines_append (h : Stacked a b) :
    tokenizeLines (sourceLines (a ++ b)) =
      (tokenizeLines (sourceLines a)).bind fun ts =>
        (relabelOutcome (· + lineCount a) (List.map (Token.relabel (· + lineCount a)))
          (tokenizeLines (sourceLines b))).map (ts ++ ·) := by
  rw [h.sourceLines_append, Flowchart.tokenizeLines_append, tokenizeLines_relabel]

theorem exists_tokens_of_parseLines {ls : List SourceLine} {ss : List Statement}
    (h : parseLines ls = .ok ss) : ∃ ts, tokenizeLines ls = .ok ts ∧ parse ts = .ok ss := by
  cases ht : tokenizeLines ls with
  | error d => rw [parseLines, ht] at h; cases h
  | ok ts => rw [parseLines, ht] at h; exact ⟨ts, rfl, h⟩

theorem parseLines_of_tokens {ls : List SourceLine} {ts : List Token}
    (h : tokenizeLines ls = .ok ts) : parseLines ls = parse ts := by
  rw [parseLines, h]; rfl

theorem parseLines_of_fault {ls : List SourceLine} {d : Diagnostic}
    (h : tokenizeLines ls = .error d) : parseLines ls = .error d := by
  rw [parseLines, h]; rfl

theorem scans_of_parseLines {text : String} {ss : List Statement}
    (h : parseLines (sourceLines text) = .ok ss) : Scans text := by
  obtain ⟨ts, ht, -⟩ := exists_tokens_of_parseLines h
  exact (exists_tokenizeLines_iff _).1 ⟨ts, ht⟩

/-- What is wrong with a source that scans is found by the parser. -/
theorem Scans.stage_of_error {text : String} (h : Scans text) {d : Diagnostic}
    (hd : parseLines (sourceLines text) = .error d) : d.cause.stage = .parsing := by
  obtain ⟨ts, hts⟩ := h.exists_tokens
  rw [parseLines_of_tokens hts] at hd
  exact stage_of_parse hd

/-- With the scanned tokens at hand, the outcome for both sources is that of the parser. -/
theorem Stacked.parseLines_append (h : Stacked a b) {ts us : List Token}
    (ha : tokenizeLines (sourceLines a) = .ok ts) (hb : tokenizeLines (sourceLines b) = .ok us) :
    parseLines (sourceLines (a ++ b)) =
      parse (ts ++ us.map (Token.relabel (· + lineCount a))) := by
  refine parseLines_of_tokens ?_
  rw [h.tokenizeLines_append, ha, hb]; rfl

theorem Stacked.parseLines_append_of_ok (h : Stacked a b) (hb : Scans b) {ss : List Statement}
    (hs : parseLines (sourceLines a) = .ok ss) :
    parseLines (sourceLines (a ++ b)) =
      (relabelOutcome (· + lineCount a) (List.map (Statement.relabel (· + lineCount a)))
        (parseLines (sourceLines b))).map (ss ++ ·) := by
  obtain ⟨us, hb⟩ := hb.exists_tokens
  obtain ⟨ts, ha, hts⟩ := exists_tokens_of_parseLines hs
  rw [h.parseLines_append ha hb, parse_append_of_ok hts, parse_relabel, parseLines_of_tokens hb]

end

theorem Statement.Draws.relabel {s : Statement} {l : String} (h : s.Draws l) (f : Int → Int) :
    (s.relabel f).Draws l := by
  obtain ⟨name, hh, hl⟩ := h
  refine ⟨name, hh, ?_⟩
  rw [← hl, Statement.relabel, List.map_map]
  rfl

theorem transpile_of_draws {ls : List SourceLine} {ss : List Statement} {out : List String}
    (h : parseLines ls = .ok ss) (hd : List.Forall₂ Statement.Draws ss out) :
    transpile ls = .ok out := by
  rw [transpile, h]
  simp only [generate_of_draws hd]
  rfl

theorem draws_of_parseLines {ls : List SourceLine} {ss : List Statement}
    (h : parseLines ls = .ok ss) : ∃ out, List.Forall₂ Statement.Draws ss out := by
  obtain ⟨ts, -, hts⟩ := exists_tokens_of_parseLines h
  exact draws_of_parse hts

/-- The outcome for two sources, from the outcomes for each. Faults of scanning come first, those
of the first source before those of the second. If both scan, the statements of the second source
follow those of the first; what goes wrong in the first one comes before the second, unless it is
that the input ends. -/
theorem stacked_outcome (a b : String) (h : Stacked a b) :
    (¬Scans a → ∃ d, parseLines (sourceLines a) = .error d ∧ d.cause.stage = .scanning ∧
      parseLines (sourceLines (a ++ b)) = .error d) ∧
    (Scans a → ¬Scans b → ∃ d, parseLines (sourceLines b) = .error d ∧
      d.cause.stage = .scanning ∧
      parseLines (sourceLines (a ++ b)) = .error (d.relabel (· + lineCount a))) ∧
    (Scans a → Scans b → ∀ ss, parseLines (sourceLines a) = .ok ss →
      (∀ us, parseLines (sourceLines b) = .ok us →
        parseLines (sourceLines (a ++ b)) =
          .ok (ss ++ us.map (Statement.relabel (· + lineCount a))) ∧
        ∃ ls ms, transpile (sourceLines a) = .ok ls ∧ transpile (sourceLines b) = .ok ms ∧
          transpile (sourceLines (a ++ b)) = .ok (ls ++ ms)) ∧
      (∀ d, parseLines (sourceLines b) = .error d → d.cause.stage = .parsing ∧
        parseLines (sourceLines (a ++ b)) = .error (d.relabel (· + lineCount a)))) ∧
    (Scans a → Scans b → ∀ d, parseLines (sourceLines a) = .error d →
      d.cause.stage = .parsing ∧
      (¬d.cause.AtEnd → parseLines (sourceLines (a ++ b)) = .error d)) := by
  refine ⟨fun ha => ?_, fun ha hb => ?_, fun _ hb ss hs => ⟨fun us hu => ?_, fun d hd => ?_⟩,
    fun ha hb d hd => ⟨ha.stage_of_error hd, fun hend => ?_⟩⟩
  · obtain ⟨d, hd, hstage⟩ := exists_fault_of_not_scans ha
    refine ⟨d, parseLines_of_fault hd, hstage, parseLines_of_fault ?_⟩
    rw [h.tokenizeLines_append, hd]; rfl
  · obtain ⟨ts, ha⟩ := ha.exists_tokens
    obtain ⟨d, hd, hstage⟩ := exists_fault_of_not_scans hb
    refine ⟨d, parseLines_of_fault hd, hstage, parseLines_of_fault ?_⟩
    rw [h.tokenizeLines_append, ha, hd]; rfl
  · have hwhole : parseLines (sourceLines (a ++ b)) =
        .ok (ss ++ us.map (Statement.relabel (· + lineCount a))) := by
      rw [h.parseLines_append_of_ok hb hs, hu]; rfl
    obtain ⟨ls, hls⟩ := draws_of_parseLines hs
    obtain ⟨ms, hms⟩ := draws_of_parseLines hu
    -- flowchart lines have no line numbers, so the moved statements keep theirs
    have hmoved : List.Forall₂ Statement.Draws (us.map (Statement.relabel (· + lineCount a))) ms :=
      List.forall₂_map_left_iff.2 (hms.imp fun _ _ hd => hd.relabel _)
    exact ⟨hwhole, ls, ms, transpile_of_draws hs hls, transpile_of_draws hu hms,
      transpile_of_draws hwhole (List.rel_append hls hmoved)⟩
  · refine ⟨hb.stage_of_error hd, ?_⟩
    rw [h.parseLines_append_of_ok hb hs, hd]; rfl
  · obtain ⟨ts, ha⟩ := ha.exists_tokens
    obtain ⟨us, hb⟩ := hb.exists_tokens
    rw [parseLines_of_tokens ha] at hd
    rw [h.parseLines_append ha hb, parse_append_of_error hd hend]

/-- A call on two lines that ends in a pair of terminators, and a second source after it. -/
theorem stacked_outcome_entity_rel :
    Stacked "Entity(a,\n\"A\")\r\n" "Rel(a \"x\"\nb)" ∧
    Scans "Entity(a,\n\"A\")\r\n" ∧ Scans "Rel(a \"x\"\nb)" ∧
    ∃ ls ms, transpile (sourceLines "Entity(a,\n\"A\")\r\n") = .ok ls ∧
      transpile (sourceLines "Rel(a \"x\"\nb)") = .ok ms ∧
      transpile (sourceLines ("Entity(a,\n\"A\")\r\n" ++ "Rel(a \"x\"\nb)")) = .ok (ls ++ ms) := by
  have h : Stacked "Entity(a,\n\"A\")\r\n" "Rel(a \"x\"\nb)" :=
    ⟨by rintro _ ⟨⟩; rfl, by decide⟩
  have ha : parseLines (sourceLines "Entity(a,\n\"A\")\r\n") =
      .ok [⟨.call .entity, 1, [⟨.identifier, "a", 1⟩, ⟨.string, "A", 2⟩]⟩] := by
    decide +kernel
  have hb : parseLines (sourceLines "Rel(a \"x\"\nb)") =
      .ok [⟨.call .rel, 1, [⟨.identifier, "a", 1⟩, ⟨.string, "x", 1⟩, ⟨.identifier, "b", 2⟩]⟩] := by
    decide +kernel
  have hsa := scans_of_parseLines ha
  have hsb := scans_of_parseLines hb
  obtain ⟨-, -, hparse, -⟩ := stacked_outcome _ _ h
  exact ⟨h, hsa, hsb, ((hparse hsa hsb _ ha).1 _ hb).2⟩

end Flowchart

import Flowchart.Proofs.Violations

/-!
# Look-ups of the parser

`parse` takes its tokens off a list, and finds the signature of a call and the
word for a parameter position by cases, so it has nothing to miss. In
`Indexed` the same steps look the tokens up by their positions, and signatures
and words in tables; each of these look-ups could miss. None does: the parser
by positions gives what `parse` gives, for every token stream.
-/

namespace Flowchart

/-- Why a parser that looks things up stops: a look-up misses, or there is a diagnostic. -/
inductive Lapse where
  | pastEnd
  | noSignature (call : CallName)
  | noOrdinal (index : Nat)
  | diagnostic (d : Diagnostic)
  deriving DecidableEq, Repr

def signatureTable : List (CallName × List Kind) :=
  [(.entity, [.identifier, .string]), (.database, [.identifier, .string]),
    (.queue, [.identifier, .string]), (.decision, [.identifier, .string]),
    (.rel, [.identifier, .string, .identifier])]

def ordinalTable : List String := ["first", "second", "third"]

/-! ## Parsing by positions -/

namespace Indexed

/-- The outcome of a look-up, which lapses when nothing is found. -/
def lookUp {α : Type} (lapse : Lapse) : Option α → Except Lapse α
  | some a => .ok a
  | none => .error lapse

def report {α : Type} (line : Int) (cause : Cause) : Except Lapse α :=
  .error (.diagnostic ⟨line, cause⟩)

/-- The parameters from a position on, and the position of the closing parenthesis. -/
def parameters (ts : List Token) (name : Token) (i : Nat) : Except Lapse (List Token × Nat) :=
  match _ : ts[i]? with
  | none => report name.line (.unterminatedCall name.value)
  | some t =>
    if t.kind = .closeParen then .ok ([], i)
    else if t.kind.isParameter then do
      let p ← lookUp .pastEnd ts[i]?
      let (ps, j) ← parameters ts name (i + 1)
      return (p :: ps, j)
    else report t.line (.unexpectedParameter name.value t.kind t.value)
termination_by ts.length - i
decreasing_by
  have hi := (List.getElem?_eq_some_iff.1 ‹ts[i]? = some t›).1
  omega

/-- The position behind the closing parenthesis. -/
def close (ts : List Token) (name : Token) (i : Nat) : Except Lapse Nat :=
  match ts[i]? with
  | none => report name.line (.expectedClose name.value none)
  | some t =>
    if t.kind = .closeParen then do
      let _ ← lookUp .pastEnd ts[i]?
      return i + 1
    else report t.line (.expectedClose name.value (some t.value))

/-- Compares kinds; a parameter of a wrong kind is reported with the word for its position. -/
def fitKinds (call : CallName) (line : Int) (index : Nat) :
    List Token → List Kind → Except Lapse Unit
  | t :: ts, k :: ks =>
    if t.kind = k then fitKinds call line (index + 1) ts ks
    else do
      let _ ← lookUp (.noOrdinal index) ordinalTable[index]?
      report line (.wrongKind call index k t.kind t.value)
  | _, _ => .ok ()

def fit (call : CallName) (line : Int) (params : List Token) : Except Lapse Unit := do
  let expected ← lookUp (.noSignature call) (signatureTable.lookup call)
  if params.length = expected.length then fitKinds call line 0 params expected
  else report line (.wrongCount call params.length)

/-- The rest of the call that `name` opens, and the position behind it. -/
def call (ts : List Token) (name : Token) (i : Nat) : Except Lapse (Statement × Nat) :=
  match CallName.ofText? name.value with
  | none => report name.line (.unknownCall name.value)
  | some head =>
    match ts[i]? with
    | none => report name.line (.expectedOpen name.value none)
    | some t =>
      if t.kind = .openParen then do
        let _ ← lookUp .pastEnd ts[i]?
        let (params, j) ← parameters ts name (i + 1)
        let k ← close ts name j
        fit head name.line params
        return (⟨.call head, name.line, params⟩, k)
      else report t.line (.expectedOpen name.value (some t.value))

/-! ## Look-ups that succeed -/

theorem lookup_signatureTable (call : CallName) :
    signatureTable.lookup call = some call.signature := by
  cases call <;> rfl

theorem getElem?_ordinalTable {i : Nat} (h : i < ordinalTable.length) :
    ordinalTable[i]? = some (ordinal i) := by
  match i, h with
  | 0, _ => rfl
  | 1, _ => rfl
  | 2, _ => rfl

theorem length_signature_le (call : CallName) : call.signature.length ≤ ordinalTable.length := by
  cases call <;> decide

theorem fitKinds_eq {call : CallName} {line : Int} {i : Nat} {ps : List Token} {ks : List Kind}
    (h : i + ks.length ≤ ordinalTable.length) :
    fitKinds call line i ps ks = (wrongKind? call i ps ks).elim (.ok ()) (report line) := by
  induction ps generalizing i ks with
  | nil => cases ks <;> rfl
  | cons p ps ih =>
    cases ks with
    | nil => rfl
    | cons k ks =>
      rw [List.length_cons] at h
      rw [fitKinds, wrongKind?]
      by_cases hk : p.kind = k
      · rw [if_pos hk, if_pos hk]
        exact ih (by omega)
      · rw [if_neg hk, if_neg hk, getElem?_ordinalTable (by omega)]
        rfl

theorem fit_eq (call : CallName) (line : Int) (ps : List Token) :
    fit call line ps = (misfit? call ps).elim (.ok ()) (report line) := by
  have hkinds : fitKinds call line 0 ps call.signature = _ :=
    fitKinds_eq (by simpa using length_signature_le call)
  simp only [fit, lookup_signatureTable, lookUp, bind, Except.bind, misfit?]
  split
  · exact hkinds
  · rfl

/-! ## Positions and the tokens left -/

/-- A reading of the tokens left, with the position that it leads to. -/
def placed {α : Type} (ts : List Token) : Reading α → Except Lapse (α × Nat)
  | (.ok a, left) => .ok (a, ts.length - left.length)
  | (.error d, _) => .error (.diagnostic d)

section
variable {ts ps rest : List Token} {name t : Token} {i : Nat}

theorem getElem?_of_drop (h : ts.drop i = t :: rest) : ts[i]? = some t := by
  rw [← List.head?_drop, h]; rfl

theorem drop_succ_of_drop (h : ts.drop i = t :: rest) : ts.drop (i + 1) = rest := by
  rw [← List.tail_drop, h]; rfl

theorem drop_add_of_drop (h : ts.drop i = ps ++ rest) : ts.drop (i + ps.length) = rest := by
  rw [← List.drop_drop, h, List.drop_left]

theorem parameters_end (h : ts[i]? = none) :
    parameters ts name i = report name.line (.unterminatedCall name.value) := by
  rw [parameters]
  split
  · rfl
  · rename_i hs; rw [h] at hs; cases hs

theorem parameters_some (h : ts[i]? = some t) :
    parameters ts name i = if t.kind = .closeParen then .ok ([], i)
      else if t.kind.isParameter then
        (parameters ts name (i + 1)).map fun r => (t :: r.1, r.2)
      else report t.line (.unexpectedParameter name.value t.kind t.value) := by
  rw [parameters]
  split
  · rename_i hn; rw [h] at hn; cases hn
  · rename_i hs; rw [h] at hs; cases hs
    rw [h]
    cases parameters ts name (i + 1) <;> rfl

/-- Collecting parameters goes on behind a run of them. -/
theorem parameters_run (hcut : ts.drop i = ps ++ rest)
    (hp : ∀ p ∈ ps, p.kind.isParameter = true) :
    parameters ts name i =
      (parameters ts name (i + ps.length)).map fun r => (ps ++ r.1, r.2) := by
  induction ps generalizing i with
  | nil =>
    show parameters ts name i = _
    cases parameters ts name i <;> rfl
  | cons p ps ih =>
    obtain ⟨hparam, hps⟩ := List.forall_mem_cons.1 hp
    have hclose : p.kind ≠ .closeParen := by intro hc; rw [hc] at hparam; cases hparam
    have hnext : ts.drop (i + 1) = ps ++ rest := drop_succ_of_drop hcut
    rw [parameters_some (getElem?_of_drop hcut), if_neg hclose, if_pos hparam, ih hnext hps,
      List.length_cons, Nat.add_assoc, Nat.add_comm 1]
    cases parameters ts name (i + (ps.length + 1)) <;> rfl

theorem parameters_unterminated (hcut : ts.drop i = ps)
    (hp : ∀ p ∈ ps, p.kind.isParameter = true) :
    parameters ts name i = report name.line (.unterminatedCall name.value) := by
  rw [← List.append_nil ps] at hcut
  have hend : ts[i + ps.length]? = none := by rw [← List.head?_drop, drop_add_of_drop hcut]; rfl
  rw [parameters_run hcut hp, parameters_end hend]
  rfl

theorem parameters_unexpected (hcut : ts.drop i = ps ++ t :: rest)
    (hp : ∀ p ∈ ps, p.kind.isParameter = true) (ht : t.kind.isParameter = false)
    (hc : t.kind ≠ .closeParen) :
    parameters ts name i = report t.line (.unexpectedParameter name.value t.kind t.value) := by
  have hstop := getElem?_of_drop (drop_add_of_drop hcut)
  rw [parameters_run hcut hp, parameters_some hstop, if_neg hc, if_neg (by simp [ht])]
  rfl

theorem parameters_closed (hcut : ts.drop i = ps ++ t :: rest)
    (hp : ∀ p ∈ ps, p.kind.isParameter = true) (hc : t.kind = .closeParen) :
    parameters ts name i = .ok (ps, i + ps.length) := by
  have hstop := getElem?_of_drop (drop_add_of_drop hcut)
  rw [parameters_run hcut hp, parameters_some hstop, if_pos hc, Except.map, List.append_nil]

theorem close_eq (h : ts[i]? = some t) (hc : t.kind = .closeParen) :
    close ts name i = .ok (i + 1) := by
  simp only [close, h, if_pos hc, lookUp]
  rfl

/-- Behind its opening parenthesis a call is its parameters, its closing parenthesis and the
comparison with its signature. -/
theorem call_opened {head : CallName} (hn : CallName.ofText? name.value = some head)
    (h : ts[i]? = some t) (ho : t.kind = .openParen) :
    call ts name i = (parameters ts name (i + 1)).bind fun r =>
      (close ts name r.2).bind fun k => (fit head name.line r.1).map fun _ =>
        (⟨.call head, name.line, r.1⟩, k) := by
  simp only [call, hn, h, if_pos ho, lookUp]
  rfl

/-- A call with its closing parenthesis comes down to the comparison. -/
theorem call_closed {head : CallName} {o : Token} (hn : CallName.ofText? name.value = some head)
    (hcut : ts.drop i = o :: (ps ++ t :: rest)) (ho : o.kind = .openParen)
    (hp : ∀ p ∈ ps, p.kind.isParameter = true) (hc : t.kind = .closeParen) :
    call ts name i = (fit head name.line ps).map fun _ =>
      (⟨.call head, name.line, ps⟩, ts.length - rest.length) := by
  have hparams : ts.drop (i + 1) = ps ++ t :: rest := drop_succ_of_drop hcut
  have hclose := getElem?_of_drop (drop_add_of_drop hparams)
  have hbehind : i + 1 + ps.length + 1 = ts.length - rest.length := by
    have hlen := congrArg List.length hcut
    simp only [List.length_drop, List.length_cons, List.length_append] at hlen
    omega
  rw [call_opened hn (getElem?_of_drop hcut) ho, parameters_closed hparams hp hc, Except.bind,
    close_eq hclose hc, Except.bind, hbehind]

theorem call_of_callRun {r : Except Diagnostic Statement}
    (h : CallRun name (ts.drop i) r rest) : call ts name i = placed ts (r, rest) := by
  generalize hcut : ts.drop i = us at h
  cases h with
  | unknown hn => simp only [call, hn]; rfl
  | noOpen hn =>
    have hend : ts[i]? = none := by rw [← List.head?_drop, hcut]; rfl
    simp only [call, hn, hend]
    rfl
  | notOpen hn ho =>
    simp only [call, hn, getElem?_of_drop hcut, if_neg ho]
    rfl
  | @unterminated _ o ps hn ho hp =>
    have hparams : ts.drop (i + 1) = ps := drop_succ_of_drop hcut
    rw [call_opened hn (getElem?_of_drop hcut) ho, parameters_unterminated hparams hp]
    rfl
  | @unexpected _ o t ps us hn ho hp ht hc =>
    have hparams : ts.drop (i + 1) = ps ++ t :: us := drop_succ_of_drop hcut
    rw [call_opened hn (getElem?_of_drop hcut) ho, parameters_unexpected hparams hp ht hc]
    rfl
  | misfit hn ho hp hc hm =>
    rw [call_closed hn hcut ho hp hc, fit_eq, hm]
    rfl
  | complete hn ho hc hk =>
    rw [call_closed hn hcut ho (isParameter_of_fits hk) hc, fit_eq, misfit?_eq_none_iff.2 hk]
    rfl

/-- A call does not lead back. -/
theorem le_of_call {s : Statement} {j : Nat} (hi : i ≤ ts.length)
    (h : call ts name i = .ok (s, j)) : i ≤ j := by
  obtain ⟨r, left, hr⟩ := exists_callRun name (ts.drop i)
  have hleft := hr.length_le
  rw [List.length_drop] at hleft
  rw [call_of_callRun hr] at h
  cases r with
  | error d => cases h
  | ok s =>
    obtain ⟨-, rfl⟩ := Prod.mk.inj (Except.ok.inj h)
    omega

end

/-- All statements from a position on. -/
def statements (ts : List Token) (i : Nat) : Except Lapse (List Statement) :=
  if _ : i < ts.length then do
    let t ← lookUp .pastEnd ts[i]?
    if t.kind = .identifier then
      match _ : call ts t (i + 1) with
      | .error e => .error e
      | .ok (s, j) => return s :: (← statements ts j)
    else statements ts (i + 1)
  else .ok []
termination_by ts.length - i
decreasing_by
  · have hj : i + 1 ≤ j := le_of_call (by omega) ‹call ts t (i + 1) = .ok (s, j)›
    omega
  · omega

def parse (ts : List Token) : Except Lapse (List Statement) := statements ts 0

section
variable {ts us : List Token} {t : Token} {i : Nat}

theorem statements_end (h : ts.drop i = []) : statements ts i = .ok [] := by
  rw [statements, dif_neg (Nat.not_lt.2 (List.drop_eq_nil_iff.1 h))]

theorem statements_stray (h : ts.drop i = t :: us) (ht : t.kind ≠ .identifier) :
    statements ts i = statements ts (i + 1) := by
  have hget := getElem?_of_drop h
  rw [statements, dif_pos (List.getElem?_eq_some_iff.1 hget).1, hget]
  exact if_neg ht

theorem statements_call (h : ts.drop i = t :: us) (ht : t.kind = .identifier) :
    statements ts i = (call ts t (i + 1)).bind fun r => (statements ts r.2).map (r.1 :: ·) := by
  have hget := getElem?_of_drop h
  rw [statements, dif_pos (List.getElem?_eq_some_iff.1 hget).1, hget]
  simp only [lookUp, bind, Except.bind, if_pos ht]
  split
  · rename_i he; rw [he]
  · rename_i s j he
    rw [he]
    show _ = (statements ts j).map (s :: ·)
    cases statements ts j <;> rfl

end

/-- From any position on, the parser by positions gives what `parse` gives for the tokens left. -/
theorem statements_eq (ts : List Token) (i : Nat) :
    statements ts i = (Flowchart.parse (ts.drop i)).mapError .diagnostic := by
  -- the induction is over the tokens left, and the position follows from them
  generalize hus : ts.drop i = us
  induction us using parse_induction generalizing i with
  | nil => rw [statements_end hus, parse_nil]; rfl
  | stray t us ht ih =>
    rw [statements_stray hus ht, parse_stray ht]
    exact ih (i + 1) (drop_succ_of_drop hus)
  | error t us d left ht hr =>
    have hcall := call_of_callRun (drop_succ_of_drop hus ▸ hr)
    rw [statements_call hus ht, hcall, parse_of_error ht hr]
    rfl
  | ok t us s left ht hr ih =>
    have hcall := call_of_callRun (drop_succ_of_drop hus ▸ hr)
    have hleft : ts.drop (ts.length - left.length) = left := by
      have hsuffix : left <:+ ts :=
        hr.left_suffix.trans ((List.suffix_cons t us).trans (hus ▸ List.drop_suffix i ts))
      exact (List.suffix_iff_eq_drop.1 hsuffix).symm
    rw [statements_call hus ht, hcall, placed, Except.bind, ih _ hleft, parse_of_ok ht hr]
    cases Flowchart.parse left <;> rfl

end Indexed

/-! ## How parsing fails -/

theorem admits_of_tokenizeLines {ls : List SourceLine} {ts : List Token}
    (h : tokenizeLines ls = .ok ts) : ∀ t ∈ ts, t.kind.Admits t.value.toList := by
  intro t ht
  obtain ⟨l, -, us, hus, htus⟩ := exists_line_of_token h ht
  obtain ⟨s, hs, rfl, -⟩ := exists_spacing_of_tokenize hus
  exact hs.admitted t htus

section
variable {name : Token} {ts : List Token} {d : Diagnostic}

/-- The kinds of fault that a call can have. A closing parenthesis is expected only behind the
parameters, which end at one. -/
theorem Violation.kind_mem (h : Violation name ts d) :
    d.cause.kind ∈ [FaultKind.unknownCall, .expectedOpen, .unexpectedParameter, .unterminatedCall,
      .invalidParameters] := by
  cases h <;> simp [Cause.kind]

/-- The word for the position of a parameter is in the table. -/
theorem Violation.ordinal_mem (h : Violation name ts d) {call : CallName} {i : Nat}
    {expected found : Kind} {value : String}
    (hd : d.cause = .wrongKind call i expected found value) :
    ordinalTable[i]? = some (ordinal i) := by
  cases h with
  | @wrongKind _ o t p before after rest k later hn ho hp hc hk hl hne =>
    cases hd
    have hlen := congrArg List.length hk
    rw [List.length_append, List.length_map, List.length_cons] at hlen
    have hle := Indexed.length_signature_le call
    exact Indexed.getElem?_ordinalTable (by omega)
  | _ => cases hd

/-- Among tokens of a source, only an opening parenthesis is neither a parameter nor the end of
the parameters. -/
theorem Violation.text_of_unexpected (h : Violation name ts d)
    (hadmits : ∀ t ∈ ts, t.kind.Admits t.value.toList) (hk : d.cause.kind = .unexpectedParameter) :
    d.cause.text? = some "(" := by
  cases h with
  | @unexpected _ o t ps rest hn ho hp ht hc =>
    have hv := hadmits t (by simp)
    obtain ⟨kind, value, line⟩ := t
    cases kind with
    | openParen => exact congrArg some (String.toList_injective hv)
    | closeParen => exact absurd rfl hc
    | quote => exact hv.elim
    | _ => cases ht
  | _ => cases hk

end

/-- The parser fails in five ways only, and never by missing what it looks up. By positions and
tables it gives the same statements or the same diagnostic; the word for the position of a wrong
parameter is one of the three. In a scanned document an unexpected parameter is an opening
parenthesis. -/
theorem parse_fails_in_five_ways :
    (∀ ts, Indexed.parse ts = (parse ts).mapError .diagnostic) ∧
    (∀ ts d, parse ts = .error d → d.cause.stage = .parsing ∧
      d.cause.kind ∈ [FaultKind.unknownCall, .expectedOpen, .unexpectedParameter,
        .unterminatedCall, .invalidParameters] ∧
      ∀ call i expected found value, d.cause = .wrongKind call i expected found value →
        ordinalTable[i]? = some (ordinal i)) ∧
    (∀ ls ts d, tokenizeLines ls = .ok ts → parse ts = .error d →
      d.cause.kind = .unexpectedParameter → d.cause.text? = some "(") := by
  refine ⟨fun ts => Indexed.statements_eq ts 0, fun ts d h => ?_, fun ls ts d hts h hk => ?_⟩
  · obtain ⟨before, name, behind, hb⟩ := exists_breach h
    exact ⟨stage_of_parse h, hb.violation.kind_mem,
      fun _ _ _ _ _ hd => hb.violation.ordinal_mem hd⟩
  · obtain ⟨before, name, behind, hb⟩ := exists_breach h
    refine hb.violation.text_of_unexpected (fun t ht => ?_) hk
    exact admits_of_tokenizeLines hts t (by simp [hb.cut, ht])

/-- A relation whose third parameter is no identifier, with values that no scanner gives, and a
call within a call on one line. -/
theorem parse_fails_in_five_ways_nested_call :
    let quoted : List Token := [⟨.quote, "'", 3⟩, ⟨.identifier, "Rel", 3⟩, ⟨.openParen, "[", 3⟩,
      ⟨.identifier, "7", 4⟩, ⟨.string, "\"", 4⟩, ⟨.quote, "b", 5⟩]
    let third : List Token := [⟨.identifier, "Rel", 3⟩, ⟨.openParen, "[", 3⟩,
      ⟨.identifier, "7", 4⟩, ⟨.string, "\"", 4⟩, ⟨.number, "b", 5⟩, ⟨.closeParen, "]", 2⟩]
    let nested : List Token := [⟨.identifier, "Entity", 1⟩, ⟨.openParen, "(", 1⟩,
      ⟨.identifier, "Queue", 1⟩, ⟨.openParen, "(", 1⟩]
    Indexed.parse quoted = .error (.diagnostic ⟨5, .unexpectedParameter "Rel" .quote "b"⟩) ∧
    parse third = .error ⟨3, .wrongKind .rel 2 .identifier .number "b"⟩ ∧
    ordinalTable[2]? = some (ordinal 2) ∧
    tokenizeLines [⟨"Entity(Queue(", 1⟩] = .ok nested ∧
    parse nested = .error ⟨1, .unexpectedParameter "Entity" .openParen "("⟩ ∧
    (Cause.unexpectedParameter "Entity" .openParen "(").text? = some "(" := by
  intro quoted third nested
  have hquoted : parse quoted = .error ⟨5, .unexpectedParameter "Rel" .quote "b"⟩ := by
    decide +kernel
  have hthird : parse third = .error ⟨3, .wrongKind .rel 2 .identifier .number "b"⟩ := by
    decide +kernel
  have hscan : tokenizeLines [⟨"Entity(Queue(", 1⟩] = .ok nested := by decide +kernel
  have hnested : parse nested = .error ⟨1, .unexpectedParameter "Entity" .openParen "("⟩ := by
    decide +kernel
  obtain ⟨hindexed, hkinds, hunexpected⟩ := parse_fails_in_five_ways
  refine ⟨by rw [hindexed, hquoted]; rfl, hthird, ?_, hscan, hnested, ?_⟩
  · exact (hkinds _ _ hthird).2.2 _ _ _ _ _ rfl
  · exact hunexpected _ _ _ hscan hnested rfl

end Flowchart

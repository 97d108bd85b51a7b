import Flowchart.Proofs.Concatenation

/-!
# The leftmost violation

A token stream that does not parse has one call that is the first to break a
rule. Everything before it parses, and the diagnostic says which rule that call
breaks, with the line and the text of the token to blame. What stands behind
the token matters only when the input ends too early.
-/

namespace Flowchart

/-! ## Rules of a call -/

/-- `Violation name ts d`: with `ts` behind it, the identifier `name` opens a call that breaks a
rule, and `d` is the diagnostic for it. Each rule is looked at only when the ones before it are
kept. -/
inductive Violation (name : Token) : List Token → Diagnostic → Prop where
  | unknown {ts : List Token} : (∀ call : CallName, name.value ≠ call.text) →
      Violation name ts ⟨name.line, .unknownCall name.value⟩
  | ended {call : CallName} : name.value = call.text →
      Violation name [] ⟨name.line, .expectedOpen name.value none⟩
  | notOpened {call : CallName} {t : Token} {ts : List Token} :
      name.value = call.text → t.kind ≠ .openParen →
      Violation name (t :: ts) ⟨t.line, .expectedOpen name.value (some t.value)⟩
  | unterminated {call : CallName} {o : Token} {ps : List Token} :
      name.value = call.text → o.kind = .openParen → (∀ p ∈ ps, p.kind.isParameter = true) →
      Violation name (o :: ps) ⟨name.line, .unterminatedCall name.value⟩
  | unexpected {call : CallName} {o t : Token} {ps ts : List Token} :
      name.value = call.text → o.kind = .openParen → (∀ p ∈ ps, p.kind.isParameter = true) →
      t.kind.isParameter = false → t.kind ≠ .closeParen →
      Violation name (o :: (ps ++ t :: ts))
        ⟨t.line, .unexpectedParameter name.value t.kind t.value⟩
  | wrongCount {call : CallName} {o t : Token} {ps ts : List Token} :
      name.value = call.text → o.kind = .openParen → (∀ p ∈ ps, p.kind.isParameter = true) →
      t.kind = .closeParen → ps.length ≠ call.signature.length →
      Violation name (o :: (ps ++ t :: ts)) ⟨name.line, .wrongCount call ps.length⟩
  | wrongKind {call : CallName} {o t p : Token} {before after ts : List Token} {k : Kind}
      {later : List Kind} :
      name.value = call.text → o.kind = .openParen →
      (∀ q ∈ before ++ p :: after, q.kind.isParameter = true) → t.kind = .closeParen →
      call.signature = before.map (·.kind) ++ k :: later → after.length = later.length →
      p.kind ≠ k →
      Violation name (o :: ((before ++ p :: after) ++ t :: ts))
        ⟨name.line, .wrongKind call before.length k p.kind p.value⟩

theorem CallName.ofText?_eq_none_iff {s : String} :
    ofText? s = none ↔ ∀ call : CallName, s ≠ call.text := by
  rw [Option.eq_none_iff_forall_ne_some]
  exact forall_congr' fun call => not_congr ofText?_eq_some_iff

theorem wrongKind?_append {name : CallName} {i : Nat} {before after : List Token} {p : Token}
    {k : Kind} {later : List Kind} (hne : p.kind ≠ k) :
    wrongKind? name i (before ++ p :: after) (before.map (·.kind) ++ k :: later) =
      some (.wrongKind name (i + before.length) k p.kind p.value) := by
  induction before generalizing i with
  | nil => exact if_neg hne
  | cons b before ih =>
    rw [List.cons_append, List.map_cons, List.cons_append, wrongKind?, if_pos rfl, ih,
      List.length_cons, Nat.add_assoc, Nat.add_comm 1]

/-- The first parameter of a wrong kind is behind parameters of the right kinds. -/
theorem exists_of_wrongKind? {name : CallName} {i : Nat} {ps : List Token} {ks : List Kind}
    {cause : Cause} (hl : ps.length = ks.length) (h : wrongKind? name i ps ks = some cause) :
    ∃ before p after k later, ps = before ++ p :: after ∧
      ks = before.map (·.kind) ++ k :: later ∧ after.length = later.length ∧ p.kind ≠ k ∧
      cause = .wrongKind name (i + before.length) k p.kind p.value := by
  induction ps generalizing i ks with
  | nil => simp [wrongKind?] at h
  | cons p ps ih =>
    cases ks with
    | nil => cases hl
    | cons k ks =>
      rw [wrongKind?] at h
      split at h
      · rename_i hk
        obtain ⟨before, q, after, k', later, rfl, rfl, hlen, hne, rfl⟩ := ih (Nat.succ.inj hl) h
        refine ⟨p :: before, q, after, k', later, rfl, by simp [hk], hlen, hne, ?_⟩
        rw [List.length_cons, Nat.add_assoc, Nat.add_comm 1]
      · rename_i hk
        cases h
        exact ⟨[], p, ps, k, ks, rfl, rfl, Nat.succ.inj hl, hk, rfl⟩

section
variable {name : Token} {ts left : List Token} {d e : Diagnostic}

/-- A call fails by breaking a rule. -/
theorem CallRun.violation (h : CallRun name ts (.error d) left) : Violation name ts d := by
  cases h with
  | unknown hn => exact .unknown (CallName.ofText?_eq_none_iff.1 hn)
  | noOpen hn => exact .ended (CallName.ofText?_eq_some_iff.1 hn)
  | notOpen hn ho => exact .notOpened (CallName.ofText?_eq_some_iff.1 hn) ho
  | unterminated hn ho hp => exact .unterminated (CallName.ofText?_eq_some_iff.1 hn) ho hp
  | unexpected hn ho hp ht hc => exact .unexpected (CallName.ofText?_eq_some_iff.1 hn) ho hp ht hc
  | misfit hn ho hp hc hm =>
    have hn := CallName.ofText?_eq_some_iff.1 hn
    unfold misfit? at hm
    split at hm
    · rename_i hlen
      obtain ⟨before, p, after, k, later, rfl, hk, hl, hne, rfl⟩ :=
        exists_of_wrongKind? hlen hm
      rw [Nat.zero_add]
      exact .wrongKind hn ho hp hc hk hl hne
    · rename_i hlen
      cases hm
      exact .wrongCount hn ho hp hc hlen

/-- A call that breaks a rule fails. -/
theorem Violation.exists_callRun (h : Violation name ts d) :
    ∃ left, CallRun name ts (.error d) left := by
  cases h with
  | unknown hn => exact ⟨_, .unknown (CallName.ofText?_eq_none_iff.2 hn)⟩
  | ended hn => exact ⟨_, .noOpen (CallName.ofText?_eq_some_iff.2 hn)⟩
  | notOpened hn ho => exact ⟨_, .notOpen (CallName.ofText?_eq_some_iff.2 hn) ho⟩
  | unterminated hn ho hp => exact ⟨_, .unterminated (CallName.ofText?_eq_some_iff.2 hn) ho hp⟩
  | unexpected hn ho hp ht hc =>
    exact ⟨_, .unexpected (CallName.ofText?_eq_some_iff.2 hn) ho hp ht hc⟩
  | wrongCount hn ho hp hc hlen =>
    exact ⟨_, .misfit (CallName.ofText?_eq_some_iff.2 hn) ho hp hc (if_neg hlen)⟩
  | @wrongKind call o t p before after ts k later hn ho hp hc hk hl hne =>
    have hlen : (before ++ p :: after).length = call.signature.length := by simp [hk, hl]
    refine ⟨_, .misfit (CallName.ofText?_eq_some_iff.2 hn) ho hp hc ?_⟩
    rw [misfit?, if_pos hlen, hk, wrongKind?_append hne, Nat.zero_add]

theorem Violation.parse_eq (hk : name.kind = .identifier) (h : Violation name ts d) :
    parse (name :: ts) = .error d := by
  obtain ⟨left, hr⟩ := h.exists_callRun
  exact parse_of_error hk hr

theorem Violation.unique (h : Violation name ts d) (h' : Violation name ts e) : d = e := by
  obtain ⟨left, hr⟩ := h.exists_callRun
  obtain ⟨left', hr'⟩ := h'.exists_callRun
  have heq := hr.readCall_eq.symm.trans hr'.readCall_eq
  exact Except.error.inj (congrArg Prod.fst heq)

/-- Where the input ends too early, a token that belongs nowhere makes another diagnostic of it. -/
theorem Violation.exists_ne_of_atEnd (h : Violation name ts d) (hend : d.cause.AtEnd) {t : Token}
    (ht : t.kind = .quote) : ∃ e, Violation name (ts ++ [t]) e ∧ e ≠ d := by
  have hopen : t.kind ≠ .openParen := by simp [ht]
  have hclose : t.kind ≠ .closeParen := by simp [ht]
  have hparam : t.kind.isParameter = false := by rw [ht]; rfl
  cases h with
  | ended hn => exact ⟨_, .notOpened hn hopen, by simp⟩
  | unterminated hn ho hp => exact ⟨_, .unexpected hn ho hp hparam hclose, by simp⟩
  | _ => simp [Cause.AtEnd, Cause.kind, Cause.text?] at hend

end

/-! ## The first call that breaks a rule -/

/-- A stream is cut at the name of a call that breaks a rule, and what stands before it parses. -/
structure Breach (ts before : List Token) (name : Token) (behind : List Token) (d : Diagnostic) :
    Prop where
  cut : ts = before ++ name :: behind
  parses : ∃ ss, parse before = .ok ss
  opens : name.kind = .identifier
  violation : Violation name behind d

section
variable {ts before before' behind behind' : List Token} {name name' : Token} {d d' : Diagnostic}

theorem Breach.parse_append (h : Breach ts before name behind d) (us : List Token) :
    ∃ ss, parse (ts ++ us) = (parse (name :: (behind ++ us))).map (ss ++ ·) := by
  obtain ⟨ss, hss⟩ := h.parses
  refine ⟨ss, ?_⟩
  rw [h.cut, List.append_assoc, parse_append_of_ok hss]
  rfl

theorem Breach.parse_eq (h : Breach ts before name behind d) : parse ts = .error d := by
  obtain ⟨ss, hss⟩ := h.parse_append []
  rw [List.append_nil, List.append_nil, h.violation.parse_eq h.opens] at hss
  exact hss

theorem exists_breach (h : parse ts = .error d) : ∃ before name behind,
    Breach ts before name behind d := by
  induction ts using parse_induction with
  | nil => rw [parse_nil] at h; cases h
  | stray t ts ht ih =>
    rw [parse_stray ht] at h
    obtain ⟨before, name, behind, rfl, hss, hk, hv⟩ := ih h
    exact ⟨t :: before, name, behind, rfl, by rwa [parse_stray ht], hk, hv⟩
  | error t ts e left ht hr =>
    rw [parse_of_error ht hr] at h; cases h
    exact ⟨[], t, ts, rfl, ⟨[], parse_nil⟩, ht, hr.violation⟩
  | ok t ts s left ht hr ih =>
    obtain ⟨c, hc, rfl⟩ := Call.exists_of_callRun ht hr
    rw [parse_of_ok ht hr] at h
    cases hp : parse left with
    | ok rest => rw [hp] at h; cases h
    | error e =>
      rw [hp] at h; cases h
      obtain ⟨before, name, behind, rfl, ⟨ss, hss⟩, hk, hv⟩ := ih hp
      refine ⟨c.tokens ++ before, name, behind, by rw [← hc, List.append_assoc], ?_, hk, hv⟩
      exact ⟨c.statement :: ss, by rw [c.parse_append, hss]; rfl⟩

/-- No stream that parses goes through the call at which another one is cut. -/
theorem Breach.eq_nil_of_append (h : Breach ts before name behind d)
    (h' : Breach ts before' name' behind' d') {more : List Token} (hm : before' = before ++ more) :
    more = [] := by
  have hrest : name :: behind = more ++ name' :: behind' := by
    have hcut := h.cut.symm.trans h'.cut
    rw [hm, List.append_assoc] at hcut
    exact List.append_cancel_left hcut
  cases more with
  | nil => rfl
  | cons t more =>
    obtain ⟨rfl, hbehind⟩ := List.cons.inj hrest
    obtain ⟨ss, hss⟩ := h.parses
    obtain ⟨ss', hss'⟩ := h'.parses
    rw [hm, parse_append_of_ok hss] at hss'
    -- the call reads to its end within `more`, so it reads on all of `behind` as well
    obtain ⟨r, left, hr⟩ := exists_callRun name more
    cases r with
    | error e => rw [parse_of_error h.opens hr] at hss'; cases hss'
    | ok s =>
      have hok := hr.append (by rintro _ ⟨⟩) (name' :: behind')
      obtain ⟨left', hfail⟩ := h.violation.exists_callRun
      have heq := hok.readCall_eq.symm.trans (hbehind ▸ hfail.readCall_eq)
      cases congrArg Prod.fst heq

/-- A stream is cut at one call only. -/
theorem Breach.unique (h : Breach ts before name behind d)
    (h' : Breach ts before' name' behind' d') :
    before = before' ∧ name = name' ∧ behind = behind' ∧ d = d' := by
  have hbefore : before = before' := by
    rcases List.append_eq_append_iff.1 (h.cut.symm.trans h'.cut) with ⟨more, hm, -⟩ | ⟨more, hm, -⟩
    · rw [hm, h.eq_nil_of_append h' hm, List.append_nil]
    · rw [hm, h'.eq_nil_of_append h hm, List.append_nil]
  subst hbefore
  obtain ⟨rfl, rfl⟩ := List.cons.inj (List.append_cancel_left (h.cut.symm.trans h'.cut))
  exact ⟨rfl, rfl, rfl, h.violation.unique h'.violation⟩

/-- A diagnostic that is due to the end of the input does not stay. -/
theorem Breach.exists_append_ne (h : Breach ts before name behind d) (hend : d.cause.AtEnd) :
    ∃ us, parse (ts ++ us) ≠ .error d := by
  obtain ⟨e, he, hne⟩ := h.violation.exists_ne_of_atEnd hend (t := ⟨.quote, "", 0⟩) rfl
  obtain ⟨ss, hss⟩ := h.parse_append [⟨.quote, "", 0⟩]
  rw [he.parse_eq h.opens] at hss
  refine ⟨[⟨.quote, "", 0⟩], fun heq => hne ?_⟩
  exact Except.error.inj (hss.symm.trans heq)

end

/-- A stream fails with a diagnostic if and only if the diagnostic is the one for the first call
that breaks a rule, and there is only one such call. The diagnostic stays the same whatever
follows the stream, if and only if it is not the end of the input that is too early. -/
theorem parse_reports_leftmost_violation (ts : List Token) (d : Diagnostic) :
    (parse ts = .error d ↔ ∃ before name behind, Breach ts before name behind d) ∧
    (∀ before name behind before' name' behind' e, Breach ts before name behind d →
      Breach ts before' name' behind' e →
      before = before' ∧ name = name' ∧ behind = behind' ∧ d = e) ∧
    (parse ts = .error d → ((∀ us, parse (ts ++ us) = .error d) ↔ ¬d.cause.AtEnd)) := by
  refine ⟨⟨exists_breach, ?_⟩, fun _ _ _ _ _ _ _ h h' => h.unique h', fun h => ⟨?_, ?_⟩⟩
  · rintro ⟨before, name, behind, h⟩
    exact h.parse_eq
  · intro hstable hend
    obtain ⟨before, name, behind, hb⟩ := exists_breach h
    obtain ⟨us, hus⟩ := hb.exists_append_ne hend
    exact hus (hstable us)
  · exact parse_append_of_error h

/-- Behind a complete call and a stray number, the second parameter of a relation is no label. What
follows does not matter. -/
theorem parse_reports_leftmost_violation_wrong_label :
    let complete : List Token := [⟨.identifier, "Queue", 1⟩, ⟨.openParen, "(", 1⟩,
      ⟨.identifier, "q", 1⟩, ⟨.string, "Q", 2⟩, ⟨.closeParen, ")", 2⟩, ⟨.number, "7", 3⟩]
    let name : Token := ⟨.identifier, "Rel", 4⟩
    let behind : List Token := [⟨.openParen, "(", 4⟩, ⟨.identifier, "q", 4⟩, ⟨.number, "5", 5⟩,
      ⟨.string, "x", 6⟩, ⟨.closeParen, ")", 6⟩]
    let d : Diagnostic := ⟨4, .wrongKind .rel 1 .string .number "5"⟩
    Breach (complete ++ name :: behind) complete name behind d ∧ ¬d.cause.AtEnd ∧
      parse (complete ++ name :: behind) = .error d ∧
      ∀ us, parse ((complete ++ name :: behind) ++ us) = .error d := by
  intro complete name behind d
  have hviolation : Violation name behind d := by
    refine @Violation.wrongKind name .rel ⟨.openParen, "(", 4⟩ ⟨.closeParen, ")", 6⟩
      ⟨.number, "5", 5⟩ [⟨.identifier, "q", 4⟩] [⟨.string, "x", 6⟩] [] .string [.identifier]
      rfl rfl ?_ rfl rfl rfl (by decide)
    simp [Kind.isParameter]
  have hbreach : Breach (complete ++ name :: behind) complete name behind d :=
    ⟨rfl, ⟨[⟨.call .queue, 1, [⟨.identifier, "q", 1⟩, ⟨.string, "Q", 2⟩]⟩], by decide +kernel⟩, rfl,
      hviolation⟩
  have hend : ¬d.cause.AtEnd := by simp [d, Cause.AtEnd, Cause.kind]
  obtain ⟨hparse, -, hstable⟩ := parse_reports_leftmost_violation (complete ++ name :: behind) d
  have hfails := hparse.2 ⟨_, _, _, hbreach⟩
  exact ⟨hbreach, hend, hfails, (hstable hfails).2 hend⟩

end Flowchart

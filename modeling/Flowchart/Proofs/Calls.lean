import Flowchart.Cursor
import Flowchart.Proofs.Runs

/-!
# Reading calls

`CallRun name ts r left` lists what can come of reading a call behind its
name: the first rule that the tokens break, or the statement. It says in each
case what the tokens look like, which of them are left, and which of them the
diagnostic points to. `parse` reads one call after another.
-/

namespace Flowchart

namespace CallName

theorem ofText?_text (call : CallName) : ofText? call.text = some call := by
  cases call <;> rfl

theorem ofText?_eq_some_iff {s : String} {call : CallName} :
    ofText? s = some call ↔ s = call.text := by
  constructor
  · intro h
    have hs := List.find?_some h
    exact (eq_of_beq hs).symm
  · rintro rfl; exact ofText?_text call

theorem text_injective : Function.Injective text := by
  intro a b h
  have ha := ofText?_text a
  rw [h, ofText?_text] at ha
  exact (Option.some.inj ha).symm

theorem isParameter_of_mem_signature {call : CallName} {k : Kind} (h : k ∈ call.signature) :
    k.isParameter = true := by
  cases call <;> simp [signature] at h <;> (obtain rfl | rfl | rfl := h <;> rfl)

end CallName

/-! ## Signatures -/

theorem wrongKind?_eq_none_iff {name : CallName} {i : Nat} {ps : List Token} {ks : List Kind}
    (hl : ps.length = ks.length) : wrongKind? name i ps ks = none ↔ ps.map (·.kind) = ks := by
  induction ps generalizing i ks with
  | nil => cases ks <;> simp_all [wrongKind?]
  | cons p ps ih =>
    cases ks with
    | nil => cases hl
    | cons k ks =>
      by_cases hk : p.kind = k
      · simp [wrongKind?, hk, ih (Nat.succ.inj hl)]
      · simp [wrongKind?, hk]

/-- Parameters fit when their kinds are the ones of the signature. -/
theorem misfit?_eq_none_iff {name : CallName} {ps : List Token} :
    misfit? name ps = none ↔ ps.map (·.kind) = name.signature := by
  unfold misfit?
  split
  · rename_i hl
    exact wrongKind?_eq_none_iff hl
  · rename_i hl
    constructor
    · intro h; cases h
    · intro h
      rw [← h, List.length_map] at hl
      exact (hl rfl).elim

theorem isParameter_of_fits {name : CallName} {ps : List Token}
    (h : ps.map (·.kind) = name.signature) : ∀ p ∈ ps, p.kind.isParameter = true := by
  intro p hp
  exact CallName.isParameter_of_mem_signature (h ▸ List.mem_map_of_mem hp)

/-! ## One call -/

/-- What reading a call behind its name comes to, and the tokens left. -/
inductive CallRun (name : Token) :
    List Token → Except Diagnostic Statement → List Token → Prop where
  | unknown {ts : List Token} : CallName.ofText? name.value = none →
      CallRun name ts (.error ⟨name.line, .unknownCall name.value⟩) ts
  | noOpen {call : CallName} : CallName.ofText? name.value = some call →
      CallRun name [] (.error ⟨name.line, .expectedOpen name.value none⟩) []
  | notOpen {call : CallName} {t : Token} {ts : List Token} :
      CallName.ofText? name.value = some call → t.kind ≠ .openParen →
      CallRun name (t :: ts) (.error ⟨t.line, .expectedOpen name.value (some t.value)⟩) (t :: ts)
  | unterminated {call : CallName} {o : Token} {ps : List Token} :
      CallName.ofText? name.value = some call → o.kind = .openParen →
      (∀ p ∈ ps, p.kind.isParameter = true) →
      CallRun name (o :: ps) (.error ⟨name.line, .unterminatedCall name.value⟩) []
  | unexpected {call : CallName} {o t : Token} {ps ts : List Token} :
      CallName.ofText? name.value = some call → o.kind = .openParen →
      (∀ p ∈ ps, p.kind.isParameter = true) → t.kind.isParameter = false →
      t.kind ≠ .closeParen →
      CallRun name (o :: (ps ++ t :: ts))
        (.error ⟨t.line, .unexpectedParameter name.value t.kind t.value⟩) (t :: ts)
  | misfit {call : CallName} {o t : Token} {ps ts : List Token} {cause : Cause} :
      CallName.ofText? name.value = some call → o.kind = .openParen →
      (∀ p ∈ ps, p.kind.isParameter = true) → t.kind = .closeParen →
      misfit? call ps = some cause →
      CallRun name (o :: (ps ++ t :: ts)) (.error ⟨name.line, cause⟩) ts
  | complete {call : CallName} {o t : Token} {ps ts : List Token} :
      CallName.ofText? name.value = some call → o.kind = .openParen →
      t.kind = .closeParen → ps.map (·.kind) = call.signature →
      CallRun name (o :: (ps ++ t :: ts)) (.ok ⟨.call call, name.line, ps⟩) ts

section
variable {name o t : Token} {ps ts left : List Token} {r : Except Diagnostic Statement}

theorem readParameters_end (hp : ∀ p ∈ ps, p.kind.isParameter = true) :
    readParameters name ps = (.error ⟨name.line, .unterminatedCall name.value⟩, []) := by
  have hd : ps.dropWhile (·.kind.isParameter) = [] := List.dropWhile_eq_nil_iff.2 hp
  simp only [readParameters, hd]

theorem readParameters_run (hp : ∀ p ∈ ps, p.kind.isParameter = true)
    (ht : t.kind.isParameter = false) :
    readParameters name (ps ++ t :: ts) =
      (if t.kind = .closeParen then .ok ps
        else .error ⟨t.line, .unexpectedParameter name.value t.kind t.value⟩, t :: ts) := by
  have hs : Stops (fun p : Token => p.kind.isParameter) (t :: ts) := stops_cons.2 ht
  simp only [readParameters, dropWhile_run hp hs, takeWhile_run hp hs]
  split <;> rfl

theorem CallRun.readCall_eq (h : CallRun name ts r left) : readCall name ts = (r, left) := by
  cases h with
  | unknown hn => simp [readCall, hn]
  | noOpen hn => simp [readCall, hn]
  | notOpen hn ho => simp [readCall, hn, ho]
  | unterminated hn ho hp => simp [readCall, hn, ho, readParameters_end hp]
  | unexpected hn ho hp ht hc => simp [readCall, hn, ho, readParameters_run hp ht, hc]
  | misfit hn ho hp hc hm =>
    simp [readCall, hn, ho, readParameters_run hp (by rw [hc]; rfl), hc, readClose, hm]
  | complete hn ho hc hk =>
    simp [readCall, hn, ho, readParameters_run (isParameter_of_fits hk) (by rw [hc]; rfl), hc,
      readClose, misfit?_eq_none_iff.2 hk]

/-- Every token list is in one of the cases. -/
theorem exists_callRun (name : Token) (ts : List Token) : ∃ r left, CallRun name ts r left := by
  cases hn : CallName.ofText? name.value with
  | none => exact ⟨_, _, .unknown hn⟩
  | some call =>
    cases ts with
    | nil => exact ⟨_, _, .noOpen hn⟩
    | cons o ts =>
      by_cases ho : o.kind = .openParen
      · obtain ⟨ps, rest, rfl, hp, hs⟩ := exists_run (fun t : Token => t.kind.isParameter) ts
        cases rest with
        | nil => rw [List.append_nil]; exact ⟨_, _, .unterminated hn ho hp⟩
        | cons t left =>
          have ht : t.kind.isParameter = false := by simpa using hs
          by_cases hc : t.kind = .closeParen
          · cases hm : misfit? call ps with
            | none => exact ⟨_, _, .complete hn ho hc (misfit?_eq_none_iff.1 hm)⟩
            | some cause => exact ⟨_, _, .misfit hn ho hp hc hm⟩
          · exact ⟨_, _, .unexpected hn ho hp ht hc⟩
      · exact ⟨_, _, .notOpen hn ho⟩

end

/-! ## Whole streams -/

section
variable {s : Statement} {d : Diagnostic} {t : Token} {ts left : List Token}

theorem readAll_stray (h : t.kind ≠ .identifier) : readAll (t :: ts) = readAll ts := by
  rw [readAll, if_neg h]

theorem readAll_of_ok (h : t.kind = .identifier) (hr : readCall t ts = (.ok s, left)) :
    readAll (t :: ts) = ((readAll left).1.map (s :: ·), (readAll left).2) := by
  rw [readAll, if_pos h]
  split
  · rename_i he
    rw [hr] at he; cases he
  · rename_i he
    rw [hr] at he; cases he
    obtain ⟨r | ss, rest⟩ := readAll left <;> rfl

theorem readAll_of_error (h : t.kind = .identifier) (hr : readCall t ts = (.error d, left)) :
    readAll (t :: ts) = (.error d, left) := by
  rw [readAll, if_pos h]
  split
  · rename_i he
    rw [hr] at he; cases he; rfl
  · rename_i he
    rw [hr] at he; cases he

theorem parse_nil : parse [] = .ok [] := by rw [parse, readAll]

theorem parse_stray (h : t.kind ≠ .identifier) : parse (t :: ts) = parse ts := by
  rw [parse, readAll_stray h, parse]

theorem parse_of_ok (h : t.kind = .identifier) (hr : CallRun t ts (.ok s) left) :
    parse (t :: ts) = (parse left).map (s :: ·) := by
  rw [parse, readAll_of_ok h hr.readCall_eq, parse]

theorem parse_of_error (h : t.kind = .identifier) (hr : CallRun t ts (.error d) left) :
    parse (t :: ts) = .error d := by
  rw [parse, readAll_of_error h hr.readCall_eq]

theorem CallRun.length_le {name : Token} {r : Except Diagnostic Statement}
    (h : CallRun name ts r left) : left.length ≤ ts.length := by
  have hl := length_readCall name ts
  rwa [h.readCall_eq] at hl

/-- Reading a call takes tokens off the front, also when it fails. -/
theorem CallRun.left_suffix {name : Token} {r : Except Diagnostic Statement}
    (h : CallRun name ts r left) : left <:+ ts := by
  cases h with
  | unknown | noOpen | notOpen => exact List.suffix_refl _
  | unterminated => exact List.nil_suffix
  | @unexpected _ o t ps ts => exact ⟨o :: ps, by simp⟩
  | @misfit _ o t ps ts => exact ⟨o :: (ps ++ [t]), by simp⟩
  | @complete _ o t ps ts => exact ⟨o :: (ps ++ [t]), by simp⟩

/-- Induction over a token stream, call by call. -/
theorem parse_induction {P : List Token → Prop} (nil : P [])
    (stray : ∀ t ts, t.kind ≠ .identifier → P ts → P (t :: ts))
    (error : ∀ t ts d left, t.kind = .identifier → CallRun t ts (.error d) left → P (t :: ts))
    (ok : ∀ t ts s left, t.kind = .identifier → CallRun t ts (.ok s) left → P left → P (t :: ts))
    (ts : List Token) : P ts := by
  -- a call takes any number of tokens with it, so the induction is on the length
  induction hn : ts.length using Nat.strong_induction_on generalizing ts with
  | _ n ih =>
    subst hn
    cases ts with
    | nil => exact nil
    | cons t ts =>
      by_cases ht : t.kind = .identifier
      · obtain ⟨r, left, hr⟩ := exists_callRun t ts
        cases r with
        | error d => exact error t ts d left ht hr
        | ok s => exact ok t ts s left ht hr (ih _ (Nat.lt_succ_of_le hr.length_le) left rfl)
      · exact stray t ts ht (ih _ (Nat.lt_succ_self _) ts rfl)

end

end Flowchart

import Flowchart.Proofs.Calls

/-!
# Driving a cursor

The functions that read calls share one cursor. It may be driven by any
sequence of them, with any token taken for the name of a call, and also on
after a step that failed. Each of them takes tokens off the front and gives
none back, so the tokens left are always the ones behind a position that only
grows.
-/

namespace Flowchart

/-! ## What reading leaves -/

section
variable {name : Token} {ts ps left : List Token}

/-- Parameters are read up to a closing parenthesis, which stays. -/
theorem readParameters_eq_ok (h : (readParameters name ts).1 = .ok ps) :
    ∃ t rest, ts = ps ++ t :: rest ∧ (∀ p ∈ ps, p.kind.isParameter = true) ∧
      t.kind = .closeParen ∧ (readParameters name ts).2 = t :: rest := by
  obtain ⟨qs, rest, rfl, hq, hstop⟩ := exists_run (fun t : Token => t.kind.isParameter) ts
  cases rest with
  | nil =>
    rw [List.append_nil, readParameters_end hq] at h
    cases h
  | cons t rest =>
    have ht : t.kind.isParameter = false := by simpa using hstop
    rw [readParameters_run hq ht] at h ⊢
    by_cases hc : t.kind = .closeParen
    · rw [if_pos hc] at h
      cases h
      exact ⟨t, rest, rfl, hq, hc, rfl⟩
    · rw [if_neg hc] at h
      cases h

theorem readParameters_suffix (name : Token) (ts : List Token) :
    (readParameters name ts).2 <:+ ts := by
  unfold readParameters
  dsimp only
  split
  · exact List.dropWhile_suffix _
  · split <;> exact List.dropWhile_suffix _

theorem readClose_suffix (name : Token) (ts : List Token) : (readClose name ts).2 <:+ ts := by
  unfold readClose
  split
  · exact List.suffix_refl _
  · split
    · exact List.suffix_cons _ _
    · exact List.suffix_refl _

theorem readCall_suffix (name : Token) (ts : List Token) : (readCall name ts).2 <:+ ts := by
  obtain ⟨r, left, hr⟩ := exists_callRun name ts
  rw [hr.readCall_eq]
  exact hr.left_suffix

/-- A call that is read consists of its parentheses and its parameters. -/
theorem readCall_eq_ok {s : Statement} (h : (readCall name ts).1 = .ok s) :
    ∃ o t, ts = (o :: (s.params ++ [t])) ++ (readCall name ts).2 ∧ o.kind = .openParen ∧
      t.kind = .closeParen ∧ ∀ p ∈ s.params, p.kind.isParameter = true := by
  obtain ⟨r, left, hr⟩ := exists_callRun name ts
  rw [hr.readCall_eq] at h ⊢
  obtain rfl : r = .ok s := h
  cases hr with
  | @complete _ o t ps _ hn ho hc hk => exact ⟨o, t, by simp, ho, hc, isParameter_of_fits hk⟩

theorem readAll_nil : readAll [] = (.ok [], []) := by rw [readAll]

theorem readAll_suffix (ts : List Token) : (readAll ts).2 <:+ ts := by
  induction ts using parse_induction with
  | nil => exact readAll_nil ▸ List.suffix_refl _
  | stray t ts ht ih =>
    rw [readAll_stray ht]
    exact ih.trans (List.suffix_cons t ts)
  | error t ts d left ht hr =>
    rw [readAll_of_error ht hr.readCall_eq]
    exact hr.left_suffix.trans (List.suffix_cons t ts)
  | ok t ts s left ht hr ih =>
    rw [readAll_of_ok ht hr.readCall_eq]
    exact ih.trans (hr.left_suffix.trans (List.suffix_cons t ts))

/-- Nothing is left when all calls are read. -/
theorem readAll_eq_ok {ss : List Statement} (h : (readAll ts).1 = .ok ss) :
    (readAll ts).2 = [] := by
  induction ts using parse_induction generalizing ss with
  | nil => exact congrArg Prod.snd readAll_nil
  | stray t ts ht ih =>
    rw [readAll_stray ht] at h ⊢
    exact ih h
  | error t ts d left ht hr =>
    rw [readAll_of_error ht hr.readCall_eq] at h
    cases h
  | ok t ts s left ht hr ih =>
    rw [readAll_of_ok ht hr.readCall_eq] at h ⊢
    cases hl : (readAll left).1 with
    | error d => rw [hl] at h; cases h
    | ok ss => exact ih hl

end

namespace Cursor

/-! ## Steps and runs -/

/-- What a cursor can be asked to do. Calls and their parts take a token for the name. -/
inductive Step where
  | atEnd
  | current
  | advance
  | call (name : Token)
  | parameters (name : Token)
  | close (name : Token)
  | all
  deriving DecidableEq, Repr

/-- The state after a step. A step that fails leaves the cursor where it stopped. -/
def perform (c : Cursor) : Step → Cursor
  | .atEnd | .current => c
  | .advance => c.advance.2
  | .call name => (c.call name).2
  | .parameters name => (c.parameters name).2
  | .close name => (c.close name).2
  | .all => c.all.2

/-- The state after a sequence of steps. -/
def drive (c : Cursor) (steps : List Step) : Cursor := steps.foldl perform c

/-- What any number of steps can do to a cursor. -/
structure Moves (c c' : Cursor) : Prop where
  tokens_eq : c'.tokens = c.tokens
  rest_suffix : c'.rest <:+ c.rest

/-- A cursor whose tokens left are the last ones of its stream. -/
def Fits (c : Cursor) : Prop := c.rest <:+ c.tokens

variable {c c' : Cursor}

theorem moves_perform (c : Cursor) (a : Step) : Moves c (c.perform a) := by
  cases a with
  | atEnd => exact ⟨rfl, List.suffix_refl _⟩
  | current => exact ⟨rfl, List.suffix_refl _⟩
  | advance =>
    show Moves c c.advance.2
    unfold advance
    split
    · exact ⟨rfl, List.suffix_refl _⟩
    · rename_i t ts hr
      exact ⟨rfl, [t], hr.symm⟩
  | call name => exact ⟨rfl, readCall_suffix name c.rest⟩
  | parameters name => exact ⟨rfl, readParameters_suffix name c.rest⟩
  | close name => exact ⟨rfl, readClose_suffix name c.rest⟩
  | all => exact ⟨rfl, readAll_suffix c.rest⟩

theorem moves_drive (c : Cursor) (steps : List Step) : Moves c (c.drive steps) := by
  induction steps generalizing c with
  | nil => exact ⟨rfl, List.suffix_refl _⟩
  | cons a steps ih =>
    have hstep := moves_perform c a
    have hrun := ih (c.perform a)
    exact ⟨hrun.tokens_eq.trans hstep.tokens_eq, hrun.rest_suffix.trans hstep.rest_suffix⟩

theorem Moves.fits (h : Moves c c') (hc : c.Fits) : c'.Fits := by
  unfold Fits
  rw [h.tokens_eq]
  exact h.rest_suffix.trans hc

theorem Moves.position_le (h : Moves c c') : c.position ≤ c'.position := by
  have hle := h.rest_suffix.length_le
  unfold position
  rw [h.tokens_eq]
  omega

theorem Fits.rest_eq (h : c.Fits) : c.rest = c.tokens.drop c.position :=
  List.suffix_iff_eq_drop.1 h

/-- The tokens between two positions are the ones that were read. -/
theorem Fits.extract_eq (h : c.Fits) {read rest : List Token} (hr : c.rest = read ++ rest) :
    c.tokens.extract c.position (position ⟨c.tokens, rest⟩) = read := by
  have hlen := congrArg List.length hr
  have hle : c.rest.length ≤ c.tokens.length := h.length_le
  have hread : position ⟨c.tokens, rest⟩ - c.position = read.length := by
    simp only [position, List.length_append] at hlen ⊢
    omega
  show (c.tokens.drop c.position).take _ = read
  rw [← h.rest_eq, hread, hr, List.take_left]

theorem apply_eq_ok_iff {α : Type} {r : Reading α} {a : α} :
    (c.apply r).1 = .ok a ↔ r.1 = .ok a := by
  unfold apply
  cases r.1 <;> simp [Except.mapError]

/-- A reading of parameters between two states of a cursor over `ts`: they are the tokens passed
over, and a closing parenthesis comes next, whatever the name of the call. -/
structure Closes (ts ps : List Token) (c c' : Cursor) : Prop where
  read : ps = ts.extract c.position c'.position
  parameters : ∀ p ∈ ps, p.kind.isParameter = true
  at_close : ∃ t, c'.current? = some t ∧ t.kind = .closeParen
  close_ok : ∀ name, (c'.close name).1 = .ok () ∧ (c'.close name).2.position = c'.position + 1

theorem Fits.closes_of_parameters (h : c.Fits) {name : Token} {ps : List Token}
    (hok : (c.parameters name).1 = .ok ps) : Closes c.tokens ps c (c.parameters name).2 := by
  obtain ⟨t, rest, hcut, hp, hc, hleft⟩ := readParameters_eq_ok (apply_eq_ok_iff.1 hok)
  have hstate : (c.parameters name).2 = ⟨c.tokens, t :: rest⟩ := by
    rw [parameters, apply, hleft]
  have hlen := congrArg List.length hcut
  have hle : c.rest.length ≤ c.tokens.length := h.length_le
  rw [hstate]
  refine ⟨(h.extract_eq hcut).symm, hp, ⟨t, rfl, hc⟩, fun other => ?_⟩
  have hclose : readClose other (t :: rest) = (.ok (), rest) := if_pos hc
  simp only [close, apply, hclose, position, List.length_append, List.length_cons] at hlen ⊢
  exact ⟨rfl, by omega⟩

theorem Fits.extract_of_call (h : c.Fits) {name : Token} {s : Statement}
    (hok : (c.call name).1 = .ok s) :
    ∃ o t, c.tokens.extract c.position (c.call name).2.position = o :: (s.params ++ [t]) ∧
      o.kind = .openParen ∧ t.kind = .closeParen ∧
      ∀ p ∈ s.params, p.kind.isParameter = true := by
  obtain ⟨o, t, hcut, ho, hc, hp⟩ := readCall_eq_ok (apply_eq_ok_iff.1 hok)
  exact ⟨o, t, h.extract_eq hcut, ho, hc, hp⟩

/-- However a cursor is driven, also through steps that fail, it only moves forward within its
stream. From every state that it can be driven to, parameters that are read are the tokens passed
over and stop at a closing parenthesis, which can be read next; a call that is read takes its
parentheses and its parameters; and reading all calls is parsing the tokens left as a stream of
their own. -/
theorem driven_cursor_keeps_order (ts : List Token) (before more : List Step) :
    let c := (start ts).drive before
    let c' := c.drive more
    c.position ≤ c'.position ∧ c'.position ≤ ts.length ∧ c'.rest = ts.drop c'.position ∧
    (∀ name ps, (c.parameters name).1 = .ok ps → Closes ts ps c (c.parameters name).2) ∧
    (∀ name s, (c.call name).1 = .ok s →
      ∃ o t, ts.extract c.position (c.call name).2.position = o :: (s.params ++ [t]) ∧
        o.kind = .openParen ∧ t.kind = .closeParen ∧ ∀ p ∈ s.params, p.kind.isParameter = true) ∧
    c.all.1 = (parse (ts.drop c.position)).mapError .diagnostic ∧
    ∀ ss, c.all.1 = .ok ss → c.all.2.position = ts.length := by
  intro c c'
  have hmoves : Moves (start ts) c := moves_drive _ before
  have hmore : Moves c c' := moves_drive c more
  have hfits : c.Fits := hmoves.fits (List.suffix_refl _)
  have htokens : c.tokens = ts := hmoves.tokens_eq
  have htokens' : c'.tokens = ts := hmore.tokens_eq.trans htokens
  have hrest : c.rest = ts.drop c.position := htokens ▸ hfits.rest_eq
  refine ⟨hmore.position_le, ?_, ?_, fun name ps h => ?_, fun name s h => ?_, ?_, fun ss h => ?_⟩
  · have hle : c'.position ≤ c'.tokens.length := Nat.sub_le _ _
    rwa [htokens'] at hle
  · exact htokens' ▸ (hmore.fits hfits).rest_eq
  · exact htokens ▸ hfits.closes_of_parameters h
  · exact htokens ▸ hfits.extract_of_call h
  · rw [← hrest]
    rfl
  · have hleft := readAll_eq_ok (apply_eq_ok_iff.1 h)
    show c.tokens.length - (readAll c.rest).2.length = ts.length
    rw [hleft, htokens]
    rfl

end Cursor

end Flowchart

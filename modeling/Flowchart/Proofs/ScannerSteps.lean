import Flowchart.Proofs.DeadEnds
import Mathlib.Data.List.Forall2

/-!
# Driving a scanner

A scanner may be driven by any sequence of steps, from any place in its line,
and also on after a step that failed. `Moves s s'` says what lies between an
earlier and a later state: characters are only read, tokens are only added,
and the values of the added ones stand in the text read in between, one behind
the other. Every step moves a scanner in this way, so every run does.
-/

namespace Flowchart

/-! ## One reading -/

/-- What a reading can make of a text, with or without a fault: it takes characters off the front,
and the value of the token that it finds is among these. -/
inductive Lexed.Cuts : List Char → Lexed → Prop where
  | bare (read rest : List Char) (fault : Option Cause) : Cuts (read ++ rest) ⟨rest, none, fault⟩
  | token (lead v tail rest : List Char) (k : Kind) (fault : Option Cause) : v ++ tail ≠ [] →
      Cuts (lead ++ (v ++ (tail ++ rest))) ⟨rest, some (k, v), fault⟩

namespace Lexed

theorem Cuts.cons {cs : List Char} {r : Lexed} (h : Cuts cs r) (c : Char) : Cuts (c :: cs) r := by
  cases h with
  | bare read rest fault => exact .bare (c :: read) rest fault
  | token lead v tail rest k fault hne => exact .token (c :: lead) v tail rest k fault hne

theorem cuts_readTrailing (cs : List Char) : Cuts cs (readTrailing cs) := by
  obtain ⟨bs, rest, rfl, hb, hstop⟩ := exists_run isBlank cs
  cases rest with
  | nil =>
    rw [readTrailing, dropWhile_run hb hstop]
    exact .bare bs [] none
  | cons c rest =>
    rw [readTrailing_run hb (stops_cons.1 hstop), List.append_cons]
    exact .bare (bs ++ [c]) rest _

theorem cuts_readString (cs : List Char) : Cuts cs (readString cs) := by
  cases hf : (readString cs).fault with
  | none =>
    obtain ⟨v, rest, -, rfl, hr⟩ := readString_fault cs hf
    rw [hr]
    exact .token [] v ['"'] rest .string none (by simp)
  | some cause =>
    unfold readString at hf ⊢
    split
    · simpa using Cuts.bare cs [] (some .unterminatedString)
    · rename_i hd
      rw [hd] at hf
      cases hf

/-- A lexeme takes at least one character from where its value starts. -/
theorem cuts_of_reads {cs rest : List Char} {x : Option (Kind × List Char)}
    (h : Reads cs x rest) : Cuts cs ⟨rest, x, none⟩ := by
  cases h with
  | @separator c _ hc => exact .bare [c] rest none
  | @lexeme k v _ hk hv hstop =>
    have hne := Kind.write_ne_nil hv
    cases k with
    | string => simpa [Kind.write] using Cuts.token ['"'] v ['"'] rest .string none (by simp)
    | number => exact .token [] v [] rest .number none (by simpa [Kind.write] using hne)
    | identifier => exact .token [] v [] rest .identifier none (by simpa [Kind.write] using hne)
    | openParen => exact .token [] v [] rest .openParen none (by simpa [Kind.write] using hne)
    | closeParen => exact (hk rfl).elim
    | quote => exact hv.elim
  | @close cs hb => simpa using Cuts.token [] [')'] cs [] .closeParen none (by simp)

theorem cuts_of_refused {cs : List Char} {cause : Cause} (h : Refused cs cause) :
    Cuts cs (next cs) := by
  cases h with
  | @stray c cs hnone =>
    rw [next_stray hnone]
    exact .bare [] (c :: cs) _
  | @trailing bs cs c hb hc =>
    have hn : next (')' :: (bs ++ c :: cs)) =
        ⟨cs, some (.closeParen, [')']), some (.trailingCharacter c)⟩ := by
      show { readTrailing (bs ++ c :: cs) with token := some (Kind.closeParen, [')']) } = _
      rw [readTrailing_run hb hc]
    rw [hn]
    simpa using
      Cuts.token [] [')'] (bs ++ [c]) cs .closeParen (some (.trailingCharacter c)) (by simp)
  | @unterminated v hv => exact (cuts_readString v).cons '"'

theorem cuts_next (cs : List Char) : Cuts cs (next cs) := by
  cases hf : (next cs).fault with
  | none =>
    have hr := reads_next hf
    rw [next_of_reads hr]
    exact cuts_of_reads hr
  | some cause =>
    cases cs with
    | nil => exact .bare [] [] _
    | cons c cs => exact cuts_of_refused (refused_of_next hf)

end Lexed

/-! ## Spans -/

/-- The tokens `ts` have their values in a text at the given spans, which lie between two
positions, one behind the other. -/
structure Placed (text : List Char) (first last : Nat) (ts : List Token)
    (spans : List (Nat × Nat)) : Prop where
  values : List.Forall₂ (fun t p => t.value.toList = text.extract p.1 p.2) ts spans
  within : ∀ p ∈ spans, first ≤ p.1 ∧ p.1 < last ∧ p.1 ≤ p.2 ∧ p.2 ≤ last
  ordered : spans.Pairwise fun p q => p.1 < q.1 ∧ p.2 ≤ q.1

namespace Placed

variable {text : List Char} {first mid last : Nat} {ts us : List Token}
  {ps qs : List (Nat × Nat)}

theorem nil : Placed text first last [] [] := ⟨.nil, by simp, .nil⟩

theorem append (h : Placed text first mid ts ps) (h' : Placed text mid last us qs)
    (hfirst : first ≤ mid) (hlast : mid ≤ last) :
    Placed text first last (ts ++ us) (ps ++ qs) where
  values := List.rel_append h.values h'.values
  within p hp := by
    rcases List.mem_append.1 hp with hp | hp
    · have hw := h.within p hp
      omega
    · have hw := h'.within p hp
      omega
  ordered := by
    refine List.pairwise_append.2 ⟨h.ordered, h'.ordered, fun p hp q hq => ?_⟩
    have hw := h.within p hp
    have hw' := h'.within q hq
    omega

/-- The value of a token, cut out of the text. -/
theorem single {before lead v tail rest : List Char} {t : Token} (ht : t.value.toList = v)
    (hne : v ++ tail ≠ [])
    (htext : text = before ++ (lead ++ (v ++ (tail ++ rest)))) :
    Placed text before.length (before.length + (lead ++ (v ++ tail)).length) [t]
      [(before.length + lead.length, before.length + lead.length + v.length)] where
  values := by
    refine .cons ?_ .nil
    have hdrop : text.drop (before.length + lead.length) = v ++ (tail ++ rest) := by
      rw [htext, ← List.append_assoc, ← List.length_append, List.drop_left]
    show _ = (text.drop (before.length + lead.length)).take _
    rw [hdrop, Nat.add_sub_cancel_left, List.take_left, ht]
  within p hp := by
    have hpos : 0 < (v ++ tail).length := List.length_pos_of_ne_nil hne
    obtain rfl := List.mem_singleton.1 hp
    simp only [List.length_append] at hpos ⊢
    omega
  ordered := List.pairwise_singleton _ _

end Placed

namespace Scanner

/-! ## What lies between two states -/

/-- A scanner between whose text and the text left nothing is lost. -/
def Fits (s : Scanner) : Prop := s.rest <:+ s.text

/-- What any number of steps can do to a scanner. -/
structure Moves (s s' : Scanner) : Prop where
  text_eq : s'.text = s.text
  line_eq : s'.line = s.line
  rest_suffix : s'.rest <:+ s.rest
  found : ∃ ts spans, s'.tokens = s.tokens ++ ts ∧ (∀ t ∈ ts, t.line = s.line) ∧
    Placed s.text s.position s'.position ts spans

variable {s s' s'' : Scanner}

theorem Fits.rest_eq (h : s.Fits) : s.rest = s.text.drop s.position :=
  List.suffix_iff_eq_drop.1 h

namespace Moves

theorem refl (s : Scanner) : Moves s s :=
  ⟨rfl, rfl, List.suffix_refl _, [], [], by simp, by simp, .nil⟩

theorem fits (h : Moves s s') (hs : s.Fits) : s'.Fits := by
  unfold Fits
  rw [h.text_eq]
  exact h.rest_suffix.trans hs

theorem position_le (h : Moves s s') : s.position ≤ s'.position := by
  have hle := h.rest_suffix.length_le
  unfold position
  rw [h.text_eq]
  omega

theorem trans (h : Moves s s') (h' : Moves s' s'') : Moves s s'' := by
  obtain ⟨ts, ps, htokens, hline, hplaced⟩ := h.found
  obtain ⟨us, qs, htokens', hline', hplaced'⟩ := h'.found
  rw [h.text_eq] at hplaced'
  rw [h.line_eq] at hline'
  refine ⟨h'.text_eq.trans h.text_eq, h'.line_eq.trans h.line_eq,
    h'.rest_suffix.trans h.rest_suffix, ts ++ us, ps ++ qs, ?_, ?_, ?_⟩
  · rw [htokens', htokens, List.append_assoc]
  · intro t ht
    exact (List.mem_append.1 ht).elim (hline t) (hline' t)
  · exact hplaced.append hplaced' h.position_le h'.position_le

end Moves

/-- Characters that are read and leave no token. -/
theorem moves_of_suffix {rest : List Char} (h : rest <:+ s.rest) :
    Moves s { s with rest := rest } :=
  ⟨rfl, rfl, h, [], [], by simp, by simp, .nil⟩

/-- A reading moves a scanner, whether it succeeds or not. -/
theorem Fits.moves_apply (h : s.Fits) {r : Lexed} (hr : r.Cuts s.rest) : Moves s (s.apply r).2 := by
  generalize hcs : s.rest = cs at hr
  cases hr with
  | bare read rest fault =>
    have hsuffix : rest <:+ s.rest := ⟨read, hcs.symm⟩
    simpa [apply, Lexed.emitted] using moves_of_suffix hsuffix
  | token lead v tail rest k fault hne =>
    obtain ⟨before, htext⟩ := h
    rw [hcs] at htext
    have hlen := congrArg List.length htext
    have hpos : s.position = before.length := by
      simp only [position, hcs, List.length_append] at hlen ⊢
      omega
    have hpos' : (s.apply ⟨rest, some (k, v), fault⟩).2.position =
        before.length + (lead ++ (v ++ tail)).length := by
      simp only [position, apply, List.length_append] at hlen ⊢
      omega
    have hplaced := Placed.single (t := ⟨k, String.ofList v, s.line⟩) (by simp) hne htext.symm
    rw [← hpos', ← hpos] at hplaced
    have hsuffix : rest <:+ s.rest := ⟨lead ++ (v ++ tail), by simp [hcs]⟩
    exact ⟨rfl, rfl, hsuffix, [⟨k, String.ofList v, s.line⟩], _, rfl, by simp, hplaced⟩

/-! ## Reading to the end -/

theorem emitted_eq_found (line : Int) (r : Lexed) : r.emitted line = found line r.token := by
  unfold Lexed.emitted
  cases r.token <;> rfl

theorem all_at_end (h : s.rest = []) : s.all = (.ok s.tokens, s) := by
  obtain ⟨line, text, rest, tokens⟩ := s
  obtain rfl : rest = [] := h
  simp [all, scan_nil]

/-- Reading to the end is reading one lexeme after the other. -/
theorem all_of_token (h : (next s.rest).fault = none) : s.all = s.token.2.all := by
  simp only [all, token, apply, scan_of_reads s.line (reads_next h), emitted_eq_found,
    List.append_assoc]

theorem all_of_fault {cause : Cause} (hne : s.rest ≠ []) (h : (next s.rest).fault = some cause) :
    s.all.2 = s.token.2 := by
  simp only [all, token, apply, scan_of_fault s.line hne h, emitted_eq_found]

theorem Fits.moves_all (h : s.Fits) : Moves s s.all.2 := by
  -- a lexeme takes any number of characters with it, so the induction is on their number
  induction hn : s.rest.length using Nat.strong_induction_on generalizing s with
  | _ n ih =>
    subst hn
    by_cases hend : s.rest = []
    · rw [all_at_end hend]
      exact .refl s
    have hfirst : Moves s s.token.2 := h.moves_apply (Lexed.cuts_next s.rest)
    cases hf : (next s.rest).fault with
    | some cause =>
      rw [all_of_fault hend hf]
      exact hfirst
    | none =>
      rw [all_of_token hf]
      exact hfirst.trans (ih _ (length_rest_next hf) (hfirst.fits h) rfl)

/-! ## Steps and runs -/

/-- What a scanner can be asked to do. -/
inductive Step where
  | atEnd
  | current
  | advance
  | run (allowed : List Char)
  | token
  | trailing
  | string
  | all
  deriving DecidableEq, Repr

/-- The state after a step. A step that fails leaves the scanner where it stopped. -/
def perform (s : Scanner) : Step → Scanner
  | .atEnd | .current => s
  | .advance => s.advance.2
  | .run allowed => (s.run allowed).2
  | .token => s.token.2
  | .trailing => s.trailing.2
  | .string => s.string.2
  | .all => s.all.2

/-- The state after a sequence of steps. -/
def drive (s : Scanner) (steps : List Step) : Scanner := steps.foldl perform s

theorem Fits.moves_perform (h : s.Fits) (a : Step) : Moves s (s.perform a) := by
  cases a with
  | atEnd => exact .refl s
  | current => exact .refl s
  | advance =>
    show Moves s s.advance.2
    unfold advance
    split
    · exact .refl s
    · rename_i c cs hr
      exact moves_of_suffix ⟨[c], hr.symm⟩
  | run allowed => exact moves_of_suffix (List.dropWhile_suffix _)
  | token => exact h.moves_apply (Lexed.cuts_next s.rest)
  | trailing => exact h.moves_apply (Lexed.cuts_readTrailing s.rest)
  | string =>
    show Moves s s.string.2
    unfold string
    split
    · exact .refl s
    · rename_i c cs hr
      exact h.moves_apply (hr ▸ (Lexed.cuts_readString cs).cons c)
  | all => exact h.moves_all

theorem Fits.moves_drive (h : s.Fits) (steps : List Step) : Moves s (s.drive steps) := by
  induction steps generalizing s with
  | nil => exact .refl s
  | cons a steps ih =>
    have hstep := h.moves_perform a
    exact hstep.trans (ih (hstep.fits h))

theorem fits_start (l : SourceLine) : (start l).Fits := List.suffix_refl _

/-! ## Single steps of a driven scanner -/

theorem Fits.token_advances (h : s.Fits) (hok : s.token.1 = .ok ()) :
    s.position < s.token.2.position := by
  have hf : (next s.rest).fault = none := by
    cases hf : (next s.rest).fault with
    | none => rfl
    | some cause => simp [token, apply, hf] at hok
  have hlt := length_rest_next hf
  have hle : s.rest.length ≤ s.text.length := h.length_le
  simp only [position, token, apply]
  omega

/-- `r` is the longest piece at the front of `cs` that has only allowed characters. -/
structure LongestRun (allowed r cs : List Char) : Prop where
  front : r <+: cs
  mem : ∀ c ∈ r, c ∈ allowed
  longest : ∀ p, p <+: cs → (∀ c ∈ p, c ∈ allowed) → p <+: r

theorem longestRun_run (allowed : List Char) (s : Scanner) :
    LongestRun allowed (s.run allowed).1 s.rest where
  front := List.takeWhile_prefix _
  mem c hc := by simpa using List.mem_takeWhile_imp hc
  longest := by
    rintro p ⟨q, hq⟩ hp
    show p <+: s.rest.takeWhile allowed.contains
    rw [← hq, List.takeWhile_append_of_pos (by simpa using hp)]
    exact List.prefix_append p _

theorem Fits.position_run (h : s.Fits) (allowed : List Char) :
    (s.run allowed).2.position = s.position + (s.run allowed).1.length := by
  have hcut := congrArg List.length
    (List.takeWhile_append_dropWhile (p := allowed.contains) (l := s.rest))
  have hle : s.rest.length ≤ s.text.length := h.length_le
  simp only [List.length_append] at hcut
  simp only [position, run]
  omega

/-- Reading on to the end is reading the text left as a line of its own. -/
theorem all_eq_fresh {l : SourceLine} (htext : l.text.toList = s.rest) (hline : l.number = s.line) :
    s.all.1 = ((tokenize l).map (s.tokens ++ ·)).mapError .diagnostic ∧
    s.all.2 = { s with
      rest := (start l).all.2.rest
      tokens := s.tokens ++ (start l).all.2.tokens } := by
  simp only [all, start, tokenize, htext, hline, List.nil_append]
  cases (scan s.line s.rest).fault with
  | none => exact ⟨rfl, rfl⟩
  | some cause => exact ⟨rfl, rfl⟩

theorem Fits.position_all (h : s.Fits) {l : SourceLine} (htext : l.text.toList = s.rest)
    (hline : l.number = s.line) :
    s.all.2.position = s.position + (start l).all.2.position := by
  have hmoves := (fits_start l).moves_all
  have hle : s.rest.length ≤ s.text.length := h.length_le
  have hleft : (start l).all.2.rest.length ≤ s.rest.length :=
    htext ▸ hmoves.rest_suffix.length_le
  have hwhole : (start l).all.2.text = s.rest := hmoves.text_eq.trans htext
  rw [(all_eq_fresh htext hline).2]
  simp only [position, hwhole]
  omega

/-- However a scanner is driven, also through steps that fail, it only moves forward within its
line, tokens are only added at the end, and their values stand in the text read, one behind the
other. From every state that it can be driven to, a lexeme that is read takes it forward, a run is
as long as it can be, and reading on to the end is reading the text left as a line of its own. -/
theorem driven_scanner_keeps_order (l : SourceLine) (before more : List Step) :
    let s := (start l).drive before
    let s' := s.drive more
    let fresh : SourceLine := ⟨String.ofList (l.text.toList.drop s.position), l.number⟩
    s.position ≤ s'.position ∧ s'.position ≤ l.text.length ∧
    s.tokens <+: s'.tokens ∧ (∀ t ∈ s'.tokens, t.line = l.number) ∧
    (∃ spans, Placed l.text.toList 0 s'.position s'.tokens spans) ∧
    (s.token.1 = .ok () → s.position < s.token.2.position) ∧
    (∀ allowed, LongestRun allowed (s.run allowed).1 (l.text.toList.drop s.position) ∧
      (s.run allowed).2.position = s.position + (s.run allowed).1.length) ∧
    s.all.1 = ((tokenize fresh).map (s.tokens ++ ·)).mapError .diagnostic ∧
    s.all.2.tokens = s.tokens ++ (start fresh).all.2.tokens ∧
    s.all.2.position = s.position + (start fresh).all.2.position := by
  intro s s' fresh
  have hmoves : Moves (start l) s := (fits_start l).moves_drive before
  have hfits : s.Fits := hmoves.fits (fits_start l)
  have hmore : Moves s s' := hfits.moves_drive more
  have htext : s.text = l.text.toList := hmoves.text_eq
  have hrest : s.rest = l.text.toList.drop s.position := htext ▸ hfits.rest_eq
  obtain ⟨ts, -, htokens, -, -⟩ := hmore.found
  obtain ⟨us, spans, hus, hline, hplaced⟩ := (hmoves.trans hmore).found
  obtain rfl : s'.tokens = us := by simpa [start] using hus
  refine ⟨hmore.position_le, ?_, ⟨ts, htokens.symm⟩, hline, ⟨spans, ?_⟩, hfits.token_advances,
    fun allowed => ⟨?_, hfits.position_run allowed⟩, ?_⟩
  · have hle : s'.position ≤ s'.text.length := Nat.sub_le _ _
    rwa [hmore.text_eq, htext, String.length_toList] at hle
  · simpa [start, position] using hplaced
  · rw [← hrest]
    exact longestRun_run allowed s
  · have hfresh : fresh.text.toList = s.rest := hrest ▸ String.toList_ofList
    obtain ⟨hresult, hstate⟩ := all_eq_fresh hfresh hmoves.line_eq.symm
    exact ⟨hresult, by rw [hstate], hfits.position_all hfresh hmoves.line_eq.symm⟩

end Scanner

end Flowchart

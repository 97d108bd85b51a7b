import Flowchart.Proofs.Lexical
import Flowchart.Proofs.Lines

/-!
# Scanning documents

The tokens of a text are those of its lines. `documentTokens` follows the text
and not its lines: at the front of the text a lexeme gives its token on the
current line, a separator gives nothing, and a line break moves on to the next
line.
-/

namespace Flowchart

open Text

/-! ## Lists of lines -/

theorem numberLines_append (n : Int) (xs ys : List (List Char)) :
    numberLines n (xs ++ ys) = numberLines n xs ++ numberLines (n + xs.length) ys := by
  induction xs generalizing n with
  | nil => simp [numberLines]
  | cons x xs ih =>
    simp only [List.cons_append, numberLines, ih, List.length_cons]
    congr 3; push_cast; omega

theorem tokenizeLines_empty (n : Int) (ls : List SourceLine) :
    tokenizeLines (⟨"", n⟩ :: ls) = tokenizeLines ls := by
  have hempty : tokenize ⟨"", n⟩ = .ok [] := by simp [tokenize, scan_nil]
  rw [tokenizeLines, hempty]
  cases tokenizeLines ls <;> rfl

theorem tokenizeLines_cons_ok {l : SourceLine} {ls : List SourceLine} {ts : List Token} :
    tokenizeLines (l :: ls) = .ok ts ↔
      ∃ us vs, tokenize l = .ok us ∧ tokenizeLines ls = .ok vs ∧ ts = us ++ vs := by
  rw [tokenizeLines]
  cases tokenize l with
  | error d => simp [bind, Except.bind]
  | ok us =>
    cases tokenizeLines ls with
    | error d => simp [bind, Except.bind]
    | ok vs => simp [bind, Except.bind, pure, Except.pure, eq_comm]

/-- Every token of a document is a token of one of its lines. -/
theorem exists_line_of_token {ls : List SourceLine} {ts : List Token}
    (h : tokenizeLines ls = .ok ts) {t : Token} (ht : t ∈ ts) :
    ∃ l ∈ ls, ∃ us, tokenize l = .ok us ∧ t ∈ us := by
  induction ls generalizing ts with
  | nil => cases h; cases ht
  | cons l ls ih =>
    obtain ⟨us, vs, hu, hv, rfl⟩ := tokenizeLines_cons_ok.1 h
    rcases List.mem_append.1 ht with ht | ht
    · exact ⟨l, by simp, us, hu, ht⟩
    · obtain ⟨m, hm, hrest⟩ := ih hv ht
      exact ⟨m, by simp [hm], hrest⟩

/-- A document that does not scan has the fault of one of its lines. -/
theorem exists_line_of_fault {ls : List SourceLine} {d : Diagnostic}
    (h : tokenizeLines ls = .error d) : ∃ l ∈ ls, tokenize l = .error d := by
  induction ls with
  | nil => cases h
  | cons l ls ih =>
    rw [tokenizeLines] at h
    cases hl : tokenize l with
    | error e => rw [hl] at h; cases h; exact ⟨l, by simp, hl⟩
    | ok ts =>
      cases hls : tokenizeLines ls with
      | error e =>
        rw [hl, hls] at h
        cases h
        obtain ⟨m, hm, hfault⟩ := ih hls
        exact ⟨m, by simp [hm], hfault⟩
      | ok us => rw [hl, hls] at h; cases h

/-- The lines of two documents are scanned one after the other. -/
theorem tokenizeLines_append (xs ys : List SourceLine) :
    tokenizeLines (xs ++ ys) =
      (tokenizeLines xs).bind fun ts => (tokenizeLines ys).map (ts ++ ·) := by
  induction xs with
  | nil => simp [tokenizeLines, Except.bind]; cases tokenizeLines ys <;> rfl
  | cons x xs ih =>
    rw [List.cons_append, tokenizeLines, tokenizeLines, ih]
    cases tokenize x with
    | error d => rfl
    | ok ts =>
      cases tokenizeLines xs with
      | error d => rfl
      | ok us => cases tokenizeLines ys <;> simp [bind, Except.bind, pure, Except.pure, Except.map]

/-! ## Reading a text from its front -/

/-- The tokens of a text whose first line has a given number. -/
def documentTokens (n : Int) (cs : List Char) : Except Diagnostic (List Token) :=
  tokenizeLines (numberLines n (lines cs))

theorem documentTokens_ok {n : Int} {cs : List Char} {ts : List Token} :
    documentTokens n cs = .ok ts ↔ ∃ us vs, tokenize ⟨String.ofList (firstLine cs), n⟩ = .ok us ∧
      tokenizeLines (numberLines (n + 1) (laterLines cs)) = .ok vs ∧ ts = us ++ vs := by
  rw [documentTokens, firstLine, laterLines]
  cases lines cs with
  | nil =>
    -- an empty text has no line, but scans like one that is empty
    rw [numberLines, ← tokenizeLines_empty n []]
    exact tokenizeLines_cons_ok
  | cons l ls => exact tokenizeLines_cons_ok

theorem tokenize_of_reads {cs rest : List Char} {x : Option (Kind × List Char)} {n : Int}
    {ts : List Token} (h : Reads cs x rest) (hr : tokenize ⟨String.ofList rest, n⟩ = .ok ts) :
    tokenize ⟨String.ofList cs, n⟩ = .ok (found n x ++ ts) := by
  simp only [tokenize, String.toList_ofList, scan_of_reads n h] at hr ⊢
  cases hf : (scan n rest).fault with
  | none => simp_all
  | some cause => simp_all

section
variable {n : Int} {w cs : List Char} {x : Option (Kind × List Char)} {ts : List Token}

/-- A step of the scanner at the front of a text. -/
theorem documentTokens_reads (hw : ∀ c ∈ w, isTerminator c = false)
    (hr : Reads (w ++ firstLine cs) x (firstLine cs)) (h : documentTokens n cs = .ok ts) :
    documentTokens n (w ++ cs) = .ok (found n x ++ ts) := by
  obtain ⟨us, vs, hu, hv, rfl⟩ := documentTokens_ok.1 h
  obtain ⟨hf, hl⟩ := firstLine_append cs hw
  rw [← List.append_assoc]
  refine documentTokens_ok.2 ⟨_, vs, ?_, by rwa [hl], rfl⟩
  rw [hf]; exact tokenize_of_reads hr hu

theorem documentTokens_lexeme {k : Kind} {v : List Char} (hk : k ≠ .closeParen) (hv : k.Admits v)
    (hw : ∀ c ∈ k.write v, isTerminator c = false) (hs : Stops k.goesOn cs)
    (h : documentTokens n cs = .ok ts) :
    documentTokens n (k.write v ++ cs) = .ok (⟨k, String.ofList v, n⟩ :: ts) :=
  documentTokens_reads hw (.lexeme hk hv (stops_firstLine hs)) h

theorem documentTokens_close {blanks : List Char} (hb : ∀ c ∈ blanks, c = ' ' ∨ c = '\t')
    (hs : firstLine cs = []) (h : documentTokens n cs = .ok ts) :
    documentTokens n (')' :: (blanks ++ cs)) = .ok (⟨.closeParen, ")", n⟩ :: ts) := by
  have hclass : ∀ c ∈ blanks, isBlank c = true ∧ isTerminator c = false := by
    intro c hc
    obtain rfl | rfl := hb c hc <;> exact ⟨rfl, rfl⟩
  have hw : ∀ c ∈ ')' :: blanks, isTerminator c = false :=
    List.forall_mem_cons.2 ⟨rfl, fun c hc => (hclass c hc).2⟩
  have hr : Reads (')' :: blanks ++ firstLine cs) (some (.closeParen, [')'])) (firstLine cs) := by
    rw [hs, List.append_nil]; exact .close fun c hc => (hclass c hc).1
  exact documentTokens_reads hw hr h

theorem documentTokens_break {c : Char} (hc : isTerminator c = true) (hu : Uncut [c] cs) :
    documentTokens n (c :: cs) = documentTokens (n + 1) cs := by
  rw [documentTokens, lines_break hc hu]
  exact tokenizeLines_empty n _

theorem documentTokens_pair :
    documentTokens n ('\r' :: '\n' :: cs) = documentTokens (n + 1) cs := by
  rw [documentTokens, lines_pair]
  exact tokenizeLines_empty n _

/-- A gap gives no tokens; its line breaks count. -/
theorem documentTokens_gap {g : List Char}
    (hg : ∀ c ∈ g, isSeparator c = true ∨ isTerminator c = true) (hu : Uncut g cs)
    (h : documentTokens (n + breaks g) cs = .ok ts) : documentTokens n (g ++ cs) = .ok ts := by
  induction g using lines_induction generalizing n with
  | nil => simpa [breaks] using h
  | pair g ih =>
    rw [List.cons_append, List.cons_append, documentTokens_pair]
    refine ih (fun c hc => hg c (by simp [hc])) hu.tail.tail ?_
    rw [← h, breaks_pair]; congr 1; push_cast; omega
  | single c g hc hcut ih =>
    rw [List.cons_append, documentTokens_break hc (hcut.append hu)]
    refine ih (fun c hc => hg c (by simp [hc])) hu.tail ?_
    rw [← h, breaks_break hc hcut]; congr 1; push_cast; omega
  | char c g hc ih =>
    have hsep : isSeparator c = true := by simpa [hc] using hg c (by simp)
    have hrest := ih (fun c hc => hg c (by simp [hc])) hu.tail (by rwa [breaks_char g hc] at h)
    exact documentTokens_reads (w := [c]) (by simpa using hc) (.separator hsep) hrest

end

end Flowchart

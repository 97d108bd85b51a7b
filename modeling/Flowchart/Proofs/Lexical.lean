import Flowchart.Proofs.Runs
import Flowchart.Scanner
import Mathlib.Data.List.Chain

/-!
# The lexical grammar

`Reads cs x rest` is one step of reading: a separator is skipped, or a lexeme
is read that what follows does not continue, or a closing parenthesis that
only blanks follow. `next` takes exactly these steps, and `scan` takes them to
the end of the text.

A `Spacing` is a sequence of tokens with the gaps around them. The scanner
accepts the texts of the regular ones, and gives their tokens.
-/

namespace Flowchart

/-- The characters that may stand between lexemes. -/
def isSeparator (c : Char) : Bool := isBlank c || c == ','

namespace Kind

/-- How a value is written. -/
def write : Kind → List Char → List Char
  | string, v => '"' :: v ++ ['"']
  | _, v => v

/-- The values that the lexemes of a kind have. -/
def Admits : Kind → List Char → Prop
  | number, v => v ≠ [] ∧ ∀ c ∈ v, c.isDigit = true
  | identifier, v => v ≠ [] ∧ ∀ c ∈ v, c.isAlpha = true
  | string, v => '"' ∉ v
  | openParen, v => v = ['(']
  | closeParen, v => v = [')']
  | quote, _ => False

/-- Whether a lexeme of the kind would go on with a character. -/
def goesOn : Kind → Char → Bool
  | number, c => c.isDigit
  | identifier, c => c.isAlpha
  | _, _ => false

end Kind

/-- One step of reading: the text before it, what is found, and the text after it. -/
inductive Reads : List Char → Option (Kind × List Char) → List Char → Prop where
  | separator {c : Char} {cs : List Char} : isSeparator c = true → Reads (c :: cs) none cs
  | lexeme {k : Kind} {v cs : List Char} : k ≠ .closeParen → k.Admits v → Stops k.goesOn cs →
      Reads (k.write v ++ cs) (some (k, v)) cs
  | close {cs : List Char} : (∀ c ∈ cs, isBlank c = true) →
      Reads (')' :: cs) (some (.closeParen, [')'])) []

/-! ## Classes of characters -/

theorem isSeparator_iff {c : Char} :
    isSeparator c = true ↔ c = ' ' ∨ c = '\t' ∨ c = '\n' ∨ c = ',' := by
  simp [isSeparator, isBlank, or_assoc]

/-- Digits and letters exclude each other. -/
theorem not_isAlpha_of_isDigit {c : Char} (h : c.isDigit = true) : c.isAlpha = false := by
  have hdigit : 48 ≤ c.val.toNat ∧ c.val.toNat ≤ 57 := by
    simpa [Char.isDigit, UInt32.le_iff_toNat_le] using h
  have hupper : c.isUpper = false := by
    refine decide_eq_false fun hc => ?_
    have hlo : 65 ≤ c.val.toNat := UInt32.le_iff_toNat_le.1 hc.1
    omega
  have hlower : c.isLower = false := by
    refine Bool.and_eq_false_imp.2 fun hc => ?_
    have hlo : 97 ≤ c.val.toNat := UInt32.le_iff_toNat_le.1 (of_decide_eq_true hc)
    omega
  exact Bool.or_eq_false_iff.2 ⟨hupper, hlower⟩

namespace Kind

theorem goesOn_separator {c : Char} (k : Kind) (h : isSeparator c = true) : k.goesOn c = false := by
  obtain rfl | rfl | rfl | rfl := isSeparator_iff.1 h <;> cases k <;> decide

theorem write_ne_nil {k : Kind} {v : List Char} (hv : k.Admits v) : k.write v ≠ [] := by
  cases k <;> simp_all [write, Admits]

/-- A lexeme that begins with a character of a run is a run of the same kind. -/
theorem eq_of_goesOn {k l : Kind} {v : List Char} {c : Char} (hv : l.Admits v)
    (hc : c ∈ (l.write v).head?) (h : k.goesOn c = true) : k = l := by
  cases l with
  | number =>
    have hd : c.isDigit = true := hv.2 c (List.mem_of_mem_head? hc)
    cases k <;> simp_all [goesOn, not_isAlpha_of_isDigit hd]
  | identifier =>
    have ha : c.isAlpha = true := hv.2 c (List.mem_of_mem_head? hc)
    cases k with
    | number => rw [goesOn] at h; rw [not_isAlpha_of_isDigit h] at ha; cases ha
    | identifier => rfl
    | _ => cases h
  | string =>
    obtain rfl : '"' = c := by simpa [write] using hc
    cases k <;> cases h
  | openParen =>
    obtain rfl : v = _ := hv
    obtain rfl : '(' = c := by simpa [write] using hc
    cases k <;> cases h
  | closeParen =>
    obtain rfl : v = _ := hv
    obtain rfl : ')' = c := by simpa [write] using hc
    cases k <;> cases h
  | quote => exact hv.elim

theorem run_of_goesOn {k : Kind} {c : Char} (h : k.goesOn c = true) :
    k = .number ∨ k = .identifier := by
  cases k <;> simp_all [goesOn]

/-- The lexeme of a run begins with a character of the run. -/
theorem exists_goesOn {k : Kind} {v : List Char} (hv : k.Admits v)
    (hk : k = .number ∨ k = .identifier) : ∃ c ∈ (k.write v).head?, k.goesOn c = true := by
  obtain rfl | rfl := hk
  all_goals
    obtain ⟨c, v, rfl⟩ := List.exists_cons_of_ne_nil hv.1
    exact ⟨c, rfl, hv.2 c (by simp)⟩

end Kind

/-! ## One step -/

theorem next_separator {c : Char} {cs : List Char} (h : isSeparator c = true) :
    next (c :: cs) = { rest := cs } := by
  obtain rfl | rfl | rfl | rfl := isSeparator_iff.1 h <;> rfl

theorem next_digit {c : Char} {cs : List Char} (h : c.isDigit = true) :
    next (c :: cs) = { rest := cs.dropWhile Char.isDigit,
                       token := some (.number, c :: cs.takeWhile Char.isDigit) } := by
  have hne (d : Char) (hd : d.isDigit = false) : (c == d) = false := by
    rw [beq_eq_false_iff_ne]; rintro rfl; rw [h] at hd; cases hd
  simp [next, isBlank, h, hne]

theorem next_letter {c : Char} {cs : List Char} (h : c.isAlpha = true) :
    next (c :: cs) = { rest := cs.dropWhile Char.isAlpha,
                       token := some (.identifier, c :: cs.takeWhile Char.isAlpha) } := by
  have hne (d : Char) (hd : d.isAlpha = false) : (c == d) = false := by
    rw [beq_eq_false_iff_ne]; rintro rfl; rw [h] at hd; cases hd
  have hd : c.isDigit = false := by
    by_contra hd
    rw [not_isAlpha_of_isDigit (by simpa using hd)] at h
    cases h
  simp [next, isBlank, h, hd, hne]

theorem readString_run {v cs : List Char} (hv : '"' ∉ v) :
    readString (v ++ '"' :: cs) = { rest := cs, token := some (.string, v) } := by
  have hrun : ∀ c ∈ v, (c != '"') = true := by
    intro c hc
    rw [bne_iff_ne]; rintro rfl; exact hv hc
  rw [readString, dropWhile_run hrun (by simp), takeWhile_run hrun (by simp)]

theorem next_of_reads {cs rest : List Char} {x : Option (Kind × List Char)}
    (h : Reads cs x rest) : next cs = ⟨rest, x, none⟩ := by
  cases h with
  | separator hc => exact next_separator hc
  | @lexeme k v cs hk hv hs =>
    cases k with
    | number =>
      obtain ⟨c, v, rfl⟩ := List.exists_cons_of_ne_nil hv.1
      have hrun : ∀ d ∈ v, d.isDigit = true := fun d hd => hv.2 d (by simp [hd])
      show next (c :: (v ++ _)) = _
      rw [next_digit (hv.2 c (by simp)), takeWhile_run hrun hs, dropWhile_run hrun hs]
    | identifier =>
      obtain ⟨c, v, rfl⟩ := List.exists_cons_of_ne_nil hv.1
      have hrun : ∀ d ∈ v, d.isAlpha = true := fun d hd => hv.2 d (by simp [hd])
      show next (c :: (v ++ _)) = _
      rw [next_letter (hv.2 c (by simp)), takeWhile_run hrun hs, dropWhile_run hrun hs]
    | string =>
      rw [Kind.write, List.append_assoc]
      exact readString_run hv
    | openParen => obtain rfl : v = _ := hv; rfl
    | closeParen => exact (hk rfl).elim
    | quote => exact hv.elim
  | close hb => simp [next, readTrailing, List.dropWhile_eq_nil_iff.2 hb]

theorem readTrailing_fault (cs : List Char) (h : (readTrailing cs).fault = none) :
    (∀ c ∈ cs, isBlank c = true) ∧ readTrailing cs = { rest := [] } := by
  unfold readTrailing at h ⊢
  split at h
  · rename_i hd
    exact ⟨List.dropWhile_eq_nil_iff.1 hd, rfl⟩
  · cases h

theorem readString_fault (cs : List Char) (h : (readString cs).fault = none) :
    ∃ v rest, '"' ∉ v ∧ cs = v ++ '"' :: rest ∧
      readString cs = { rest := rest, token := some (.string, v) } := by
  unfold readString at h ⊢
  have hstop := stops_dropWhile (· != '"') cs
  have hcut := List.takeWhile_append_dropWhile (p := (· != '"')) (l := cs)
  split at h
  · cases h
  · rename_i c rest hd
    rw [hd] at hstop hcut
    obtain rfl : c = '"' := by simpa using hstop
    refine ⟨cs.takeWhile (· != '"'), rest, fun hq => ?_, hcut.symm, rfl⟩
    simpa using List.mem_takeWhile_imp hq

theorem reads_run {k : Kind} {c : Char} (cs : List Char) (hc : k.goesOn c = true) :
    Reads (c :: cs) (some (k, c :: cs.takeWhile k.goesOn)) (cs.dropWhile k.goesOn) := by
  have hrun : ∀ d ∈ c :: cs.takeWhile k.goesOn, k.goesOn d = true := by
    intro d hd
    obtain rfl | hd := List.mem_cons.1 hd
    · exact hc
    · exact List.mem_takeWhile_imp hd
  have hstop := stops_dropWhile k.goesOn cs
  cases k with
  | number =>
    have h := Reads.lexeme (k := .number) (by simp) ⟨List.cons_ne_nil _ _, hrun⟩ hstop
    simpa [Kind.write] using h
  | identifier =>
    have h := Reads.lexeme (k := .identifier) (by simp) ⟨List.cons_ne_nil _ _, hrun⟩ hstop
    simpa [Kind.write] using h
  | _ => cases hc

/-- Without a fault, `next` takes one of the steps. -/
theorem reads_next {cs : List Char} (h : (next cs).fault = none) :
    Reads cs (next cs).token (next cs).rest := by
  cases cs with
  | nil => cases h
  | cons c cs =>
    by_cases hsep : isSeparator c = true
    · rw [next_separator hsep]; exact .separator hsep
    by_cases hd : c.isDigit = true
    · rw [next_digit hd]; exact reads_run (k := .number) cs hd
    by_cases ha : c.isAlpha = true
    · rw [next_letter ha]; exact reads_run (k := .identifier) cs ha
    have hb : (isBlank c || c == ',') = false := by simpa [isSeparator] using hsep
    by_cases ho : c = '('
    · subst ho
      exact .lexeme (k := .openParen) (v := ['(']) (by simp) rfl (by simp [Stops, Kind.goesOn])
    by_cases hc : c = ')'
    · subst hc
      obtain ⟨hblank, hr⟩ := readTrailing_fault cs h
      simpa [next, hr] using Reads.close hblank
    by_cases hq : c = '"'
    · subst hq
      obtain ⟨v, rest, hv, rfl, hr⟩ := readString_fault cs h
      have hn : next ('"' :: (v ++ '"' :: rest)) = ⟨rest, some (.string, v), none⟩ := hr
      rw [hn]
      simpa [Kind.write] using
        Reads.lexeme (k := .string) (v := v) (by simp) hv (by simp [Stops, Kind.goesOn])
    · simp [next, hb, hd, ha, ho, hc, hq] at h

/-! ## Whole texts -/

/-- What a step finds, placed on a line. -/
def found (line : Int) (x : Option (Kind × List Char)) : List Token :=
  (x.map fun l => ⟨l.1, String.ofList l.2, line⟩).toList

theorem scan_nil (line : Int) : scan line [] = ⟨[], [], none⟩ := by rw [scan]; rfl

theorem scan_of_reads {cs rest : List Char} {x : Option (Kind × List Char)} (line : Int)
    (h : Reads cs x rest) :
    scan line cs = { scan line rest with tokens := found line x ++ (scan line rest).tokens } := by
  have hn := next_of_reads h
  have hne : cs.isEmpty = false := by
    cases cs with
    | nil => cases hn
    | cons c cs => rfl
  rw [scan, hne]
  simp only [Bool.false_eq_true, ↓reduceIte]
  split
  · rw [hn]; cases x <;> rfl
  · rename_i hf
    rw [hn] at hf; cases hf

theorem scan_of_fault {cs : List Char} {cause : Cause} (line : Int) (hc : cs ≠ [])
    (h : (next cs).fault = some cause) :
    scan line cs = ⟨found line (next cs).token, (next cs).rest, some cause⟩ := by
  have hfound : (next cs).emitted line = found line (next cs).token := by
    unfold Lexed.emitted
    cases (next cs).token <;> rfl
  rw [scan, if_neg (by simpa using hc), ← hfound]
  dsimp only
  split
  · rename_i hf
    rw [h] at hf; cases hf
  · rename_i hf
    rw [h] at hf; cases hf; rfl

/-- What holds of the empty text, and of a text and its tokens when it holds after the first
step, holds of every text that is scanned without a fault. -/
theorem scan_induction {P : List Char → List Token → Prop} (line : Int) (nil : P [] [])
    (step : ∀ cs x rest ts, Reads cs x rest → P rest ts → P cs (found line x ++ ts))
    (cs : List Char) (h : (scan line cs).fault = none) : P cs (scan line cs).tokens := by
  induction cs using scan.induct line with
  | case1 cs hc =>
    obtain rfl : cs = [] := by simpa using hc
    rw [scan_nil]; exact nil
  | case2 cs _ _ hf ih =>
    have hr := reads_next hf
    rw [scan_of_reads line hr] at h ⊢
    exact step cs _ _ _ hr (ih h)
  | case3 cs hc _ cause hf =>
    rw [scan_of_fault line (by simpa using hc) hf] at h
    cases h

/-! ## Spacings -/

/-- A token as it is written. -/
def Token.written (t : Token) : List Char := t.kind.write t.value.toList

/-- Tokens with the gaps around them: one before the first token, and one behind each. -/
structure Spacing where
  lead : List Char
  items : List (Token × List Char)

namespace Spacing

def tokens (s : Spacing) : List Token := s.items.map (·.1)

def text (s : Spacing) : List Char := s.lead ++ s.items.flatMap fun i => i.1.written ++ i.2

/-- The rules of the notation for the tokens of a line and for the gaps between them. -/
structure Regular (line : Int) (s : Spacing) : Prop where
  on_line : ∀ t ∈ s.tokens, t.line = line
  admitted : ∀ t ∈ s.tokens, t.kind.Admits t.value.toList
  close_last : ∀ t ∈ s.tokens.dropLast, t.kind ≠ .closeParen
  lead_gap : ∀ c ∈ s.lead, isSeparator c = true
  gap : ∀ i ∈ s.items, ∀ c ∈ i.2, isSeparator c = true
  /-- Two numbers, or two identifiers, would run together. -/
  apart : s.items.IsChain fun i j => i.1.kind = j.1.kind →
    i.1.kind = .number ∨ i.1.kind = .identifier → i.2 ≠ []
  close_gap : ∀ i ∈ s.items, i.1.kind = .closeParen → ',' ∉ i.2

variable {line : Int} {t : Token} {g lead : List Char} {items : List (Token × List Char)}

theorem text_cons : text ⟨lead, (t, g) :: items⟩ = lead ++ (t.written ++ text ⟨g, items⟩) := by
  simp [text]

/-- The gap behind the first token leads the rest. -/
theorem Regular.tail (h : Regular line ⟨lead, (t, g) :: items⟩) : Regular line ⟨g, items⟩ where
  on_line u hu := h.on_line u (by simp_all [tokens])
  admitted u hu := h.admitted u (by simp_all [tokens])
  close_last u hu := h.close_last u (by
    cases items with
    | nil => simp [tokens] at hu
    | cons i items => simp_all [tokens])
  lead_gap := h.gap (t, g) (by simp)
  gap i hi := h.gap i (by simp_all)
  apart := h.apart.tail
  close_gap i hi := h.close_gap i (by simp_all)

/-- A run in front of a spacing ends where the spacing begins, unless the two are of one kind
and nothing is between them. -/
theorem Regular.stops_iff {k : Kind} {i : Token × List Char} (h : Regular line ⟨g, i :: items⟩) :
    Stops k.goesOn (text ⟨g, i :: items⟩) ↔
      (k = i.1.kind → k = .number ∨ k = .identifier → g ≠ []) := by
  cases g with
  | cons c g =>
    simp [text, stops_cons, k.goesOn_separator (h.lead_gap c (by simp))]
  | nil =>
    obtain ⟨t, g⟩ := i
    have hv := h.admitted t (by simp [tokens])
    have hhead : (text ⟨[], (t, g) :: items⟩).head? = t.written.head? := by
      rw [text_cons]; exact List.head?_append_of_ne_nil _ (Kind.write_ne_nil hv)
    rw [Stops, hhead]
    constructor
    · rintro hstop rfl hrun
      obtain ⟨c, hc, hgo⟩ := Kind.exists_goesOn hv hrun
      rw [hstop c hc] at hgo
      cases hgo
    · intro hne c hc
      cases hgo : k.goesOn c with
      | false => rfl
      | true => exact (hne (Kind.eq_of_goesOn hv hc hgo) (Kind.run_of_goesOn hgo) rfl).elim

theorem Regular.stops (h : Regular line ⟨lead, (t, g) :: items⟩) :
    Stops t.kind.goesOn (text ⟨g, items⟩) := by
  cases items with
  | nil =>
    cases g with
    | nil => exact stops_nil
    | cons c g => exact stops_cons.2 (t.kind.goesOn_separator (h.tail.lead_gap c (by simp)))
  | cons i items => exact h.tail.stops_iff.2 (List.isChain_cons_cons.1 h.apart).1

/-- Nothing but blanks stands behind a closing parenthesis. -/
theorem Regular.close (h : Regular line ⟨lead, (t, g) :: items⟩) (ht : t.kind = .closeParen) :
    items = [] ∧ ∀ c ∈ g, isBlank c = true := by
  constructor
  · cases items with
    | nil => rfl
    | cons i items => exact (h.close_last t (by simp [tokens]) ht).elim
  · intro c hc
    have hsep := h.gap (t, g) (by simp) c hc
    have hcomma : c ≠ ',' := by
      rintro rfl; exact h.close_gap (t, g) (by simp) ht hc
    simpa [isSeparator, hcomma] using hsep

theorem scan_lead (line : Int) (hg : ∀ c ∈ lead, isSeparator c = true) (cs : List Char) :
    scan line (lead ++ cs) = scan line cs := by
  induction lead with
  | nil => rfl
  | cons c lead ih =>
    rw [List.cons_append, scan_of_reads line (.separator (hg c (by simp)))]
    exact ih fun d hd => hg d (by simp [hd])

/-- The scanner gives the tokens of a regular spacing. -/
theorem Regular.scan_text (h : Regular line ⟨lead, items⟩) :
    scan line (text ⟨lead, items⟩) = ⟨tokens ⟨lead, items⟩, [], none⟩ := by
  -- the gap behind the first token leads the spacing that is left, so the lead is general
  induction items generalizing lead with
  | nil => rw [text, scan_lead line h.lead_gap]; exact scan_nil line
  | cons i items ih =>
    obtain ⟨t, g⟩ := i
    have hv := h.admitted t (by simp [tokens])
    have hl := h.on_line t (by simp [tokens])
    rw [text_cons, scan_lead line h.lead_gap]
    by_cases ht : t.kind = .closeParen
    · obtain ⟨rfl, hb⟩ := h.close ht
      have hval : t.value.toList = [')'] := by simpa [ht, Kind.Admits] using hv
      have htext : t.written ++ text ⟨g, []⟩ = ')' :: g := by
        simp [Token.written, Kind.write, text, ht, hval]
      rw [htext, scan_of_reads line (.close hb), scan_nil, ← ht, ← hval, ← hl]
      simp [found, tokens]
    · rw [Token.written, scan_of_reads line (.lexeme ht hv h.stops), ih h.tail, ← hl]
      simp [found, tokens]

theorem regular_gap (hg : ∀ c ∈ g, isSeparator c = true) : Regular line ⟨g, []⟩ := by
  constructor <;> simp_all [tokens]

theorem Regular.separator {c : Char} (h : Regular line ⟨lead, items⟩) (hc : isSeparator c = true) :
    Regular line ⟨c :: lead, items⟩ :=
  { h with lead_gap := by simpa [hc] using h.lead_gap }

/-- A token in front of a regular spacing, whose gap comes to stand behind the token. -/
theorem Regular.cons (h : Regular line ⟨g, items⟩) (hl : t.line = line)
    (hv : t.kind.Admits t.value.toList) (hs : Stops t.kind.goesOn (text ⟨g, items⟩))
    (hk : t.kind = .closeParen → items = [] ∧ ',' ∉ g) :
    Regular line ⟨[], (t, g) :: items⟩ where
  on_line := List.forall_mem_cons.2 ⟨hl, h.on_line⟩
  admitted := List.forall_mem_cons.2 ⟨hv, h.admitted⟩
  close_last := by
    cases items with
    | nil => simp [tokens]
    | cons i items =>
      exact List.forall_mem_cons.2 ⟨fun ht => absurd (hk ht).1 (by simp), h.close_last⟩
  lead_gap := by simp
  gap := List.forall_mem_cons.2 ⟨h.lead_gap, h.gap⟩
  apart := by
    cases items with
    | nil => exact .singleton _
    | cons i items => exact .cons_cons (h.stops_iff.1 hs) h.apart
  close_gap := List.forall_mem_cons.2 ⟨fun ht => (hk ht).2, h.close_gap⟩

theorem Regular.items_eq_nil (h : Regular line ⟨lead, items⟩) (ht : text ⟨lead, items⟩ = []) :
    items = [] := by
  cases items with
  | nil => rfl
  | cons i items =>
    have hv := Kind.write_ne_nil (h.admitted i.1 (by simp [tokens]))
    simp [text, Token.written, hv] at ht

end Spacing

/-- The scanner accepts the texts of regular spacings. -/
theorem exists_spacing (line : Int) (cs : List Char) (h : (scan line cs).fault = none) :
    ∃ s : Spacing, s.Regular line ∧ s.tokens = (scan line cs).tokens ∧ s.text = cs := by
  refine scan_induction (P := fun cs ts => ∃ s : Spacing, s.Regular line ∧ s.tokens = ts ∧
    s.text = cs) line ?_ ?_ cs h
  · exact ⟨⟨[], []⟩, Spacing.regular_gap (by simp), rfl, rfl⟩
  · rintro cs x rest ts hr ⟨⟨lead, items⟩, hs, rfl, htext⟩
    -- a separator joins the lead; a token goes in front, and the lead becomes the gap behind it
    cases hr with
    | @separator c _ hc =>
      exact ⟨⟨c :: lead, items⟩, hs.separator hc, rfl, by rw [← htext]; rfl⟩
    | @lexeme k v _ hk hv hstop =>
      refine ⟨⟨[], (⟨k, String.ofList v, line⟩, lead) :: items⟩, ?_, rfl, ?_⟩
      · exact hs.cons rfl (by simpa using hv) (by rwa [htext]) fun ht => (hk ht).elim
      · rw [Spacing.text_cons, htext]
        simp [Token.written]
    | @close cs hb =>
      obtain rfl := hs.items_eq_nil htext
      have hgap : ∀ c ∈ cs, isSeparator c = true := fun c hc => by simp [isSeparator, hb c hc]
      refine ⟨⟨[], [(⟨.closeParen, ")", line⟩, cs)]⟩, ?_, rfl, ?_⟩
      · have hcomma : ',' ∉ cs := fun hc => by cases hb _ hc
        exact (Spacing.regular_gap hgap).cons rfl (by simp [Kind.Admits])
          (by simp [Stops, Kind.goesOn]) fun _ => ⟨rfl, hcomma⟩
      · simp [Spacing.text, Token.written, Kind.write]

theorem exists_spacing_of_tokenize {l : SourceLine} {ts : List Token} (h : tokenize l = .ok ts) :
    ∃ s : Spacing, s.Regular l.number ∧ s.tokens = ts ∧ s.text = l.text.toList := by
  cases hf : (scan l.number l.text.toList).fault with
  | some cause => simp [tokenize, hf] at h
  | none =>
    obtain rfl : (scan l.number l.text.toList).tokens = ts := by simpa [tokenize, hf] using h
    exact exists_spacing l.number _ hf

/-- The scanner accepts exactly the texts of regular spacings: every character belongs to one
lexeme or one gap, and runs of digits and of letters are as long as they can be. -/
theorem tokenize_eq_ok_iff (text : String) (line : Int) (ts : List Token) :
    tokenize ⟨text, line⟩ = .ok ts ↔
      ∃ s : Spacing, s.Regular line ∧ s.tokens = ts ∧ s.text = text.toList := by
  constructor
  · intro h
    cases hf : (scan line text.toList).fault with
    | none =>
      obtain rfl : (scan line text.toList).tokens = ts := by simpa [tokenize, hf] using h
      exact exists_spacing line _ hf
    | some cause => simp [tokenize, hf] at h
  · rintro ⟨s, hs, rfl, htext⟩
    have hscan := hs.scan_text
    rw [tokenize, ← htext, hscan]

end Flowchart

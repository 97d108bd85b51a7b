import Flowchart.Proofs.Calls
import Flowchart.Proofs.Lexical

/-!
# Changing line numbers

Lines are carried along and reported, and nothing else depends on them: when
every line number is changed by a function, scanning and parsing give the same
results with their line numbers changed by it.
-/

namespace Flowchart

def SourceLine.relabel (f : Int → Int) (l : SourceLine) : SourceLine :=
  { l with number := f l.number }

def Token.relabel (f : Int → Int) (t : Token) : Token := { t with line := f t.line }

/-- The parameters of a statement are relabelled with it. -/
def Statement.relabel (f : Int → Int) (s : Statement) : Statement :=
  { s with line := f s.line, params := s.params.map (Token.relabel f) }

def Diagnostic.relabel (f : Int → Int) (d : Diagnostic) : Diagnostic := { d with line := f d.line }

/-- Changes the value or the diagnostic of an outcome. -/
def relabelOutcome {α : Type} (f : Int → Int) (g : α → α) (x : Except Diagnostic α) :
    Except Diagnostic α :=
  (x.map g).mapError (Diagnostic.relabel f)

section
variable {f : Int → Int}

@[simp] theorem relabelOutcome_ok {α : Type} (g : α → α) (a : α) :
    relabelOutcome f g (.ok a) = .ok (g a) := rfl

@[simp] theorem relabelOutcome_error {α : Type} (g : α → α) (d : Diagnostic) :
    relabelOutcome f g (.error d) = .error (d.relabel f) := rfl

@[simp] theorem Token.relabel_kind (t : Token) : (t.relabel f).kind = t.kind := rfl

@[simp] theorem Token.relabel_value (t : Token) : (t.relabel f).value = t.value := rfl

/-! ## Scanning -/

theorem found_relabel (line : Int) (x : Option (Kind × List Char)) :
    found (f line) x = (found line x).map (Token.relabel f) := by
  cases x <;> rfl

theorem scan_relabel (f : Int → Int) (line : Int) (cs : List Char) :
    scan (f line) cs =
      { scan line cs with tokens := (scan line cs).tokens.map (Token.relabel f) } := by
  induction cs using scan.induct line with
  | case1 cs hc =>
    obtain rfl : cs = [] := by simpa using hc
    simp [scan_nil]
  | case2 cs hc s hf ih =>
    have hr := reads_next hf
    rw [scan_of_reads _ hr, scan_of_reads _ hr, ih, found_relabel]
    simp [s]
  | case3 cs hc s cause hf =>
    have hne : cs ≠ [] := by simpa using hc
    rw [scan_of_fault _ hne hf, scan_of_fault _ hne hf, found_relabel]

theorem tokenize_relabel (f : Int → Int) (l : SourceLine) :
    tokenize (l.relabel f) = relabelOutcome f (List.map (Token.relabel f)) (tokenize l) := by
  unfold tokenize SourceLine.relabel
  simp only [scan_relabel]
  split <;> simp_all [Diagnostic.relabel]

theorem tokenizeLines_relabel (f : Int → Int) (ls : List SourceLine) :
    tokenizeLines (ls.map (SourceLine.relabel f)) =
      relabelOutcome f (List.map (Token.relabel f)) (tokenizeLines ls) := by
  induction ls with
  | nil => rfl
  | cons l ls ih =>
    rw [List.map_cons, tokenizeLines, tokenizeLines, tokenize_relabel, ih]
    cases tokenize l with
    | error d => rfl
    | ok ts =>
      cases tokenizeLines ls with
      | error d => rfl
      | ok us => simp [bind, Except.bind, pure, Except.pure]

/-! ## Parsing -/

theorem wrongKind?_relabel (name : CallName) (i : Nat) (ps : List Token) (ks : List Kind) :
    wrongKind? name i (ps.map (Token.relabel f)) ks = wrongKind? name i ps ks := by
  induction ps generalizing i ks with
  | nil => rfl
  | cons p ps ih =>
    cases ks with
    | nil => rfl
    | cons k ks => simp [wrongKind?, ih]

theorem misfit?_relabel (name : CallName) (ps : List Token) :
    misfit? name (ps.map (Token.relabel f)) = misfit? name ps := by
  simp [misfit?, wrongKind?_relabel]

/-- A call is read in the same way on other lines. -/
theorem CallRun.relabel (f : Int → Int) {name : Token} {ts left : List Token}
    {r : Except Diagnostic Statement} (h : CallRun name ts r left) :
    CallRun (name.relabel f) (ts.map (Token.relabel f)) (relabelOutcome f (Statement.relabel f) r)
      (left.map (Token.relabel f)) := by
  cases h with
  | unknown hn => exact .unknown hn
  | noOpen hn => exact .noOpen hn
  | notOpen hn ho => exact .notOpen hn ho
  | unterminated hn ho hp => exact .unterminated hn ho (by simpa using hp)
  | unexpected hn ho hp ht hc =>
    rw [List.map_cons, List.map_append, List.map_cons]
    exact .unexpected hn ho (by simpa using hp) ht hc
  | misfit hn ho hp hc hm =>
    rw [List.map_cons, List.map_append, List.map_cons]
    exact .misfit hn ho (by simpa using hp) hc (by rwa [misfit?_relabel])
  | complete hn ho hc hk =>
    rw [List.map_cons, List.map_append, List.map_cons]
    exact .complete hn ho hc (by rw [List.map_map]; exact hk)

theorem parse_relabel (f : Int → Int) (ts : List Token) :
    parse (ts.map (Token.relabel f)) =
      relabelOutcome f (List.map (Statement.relabel f)) (parse ts) := by
  induction ts using parse_induction with
  | nil => rw [List.map_nil, parse_nil]; rfl
  | stray t ts ht ih =>
    rw [List.map_cons, parse_stray (by simpa using ht), parse_stray ht, ih]
  | error t ts d left ht hr =>
    rw [List.map_cons, parse_of_error (t := t.relabel f) ht (hr.relabel f), parse_of_error ht hr]
    rfl
  | ok t ts s left ht hr ih =>
    rw [List.map_cons, parse_of_ok (t := t.relabel f) ht (hr.relabel f), parse_of_ok ht hr, ih]
    cases parse left <;> rfl

end

end Flowchart

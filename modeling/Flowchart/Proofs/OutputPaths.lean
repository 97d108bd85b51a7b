import Flowchart.Build
import Flowchart.Proofs.Runs
import Flowchart.Proofs.SettingsFaults

/-!
# Default outputs

The document of a source takes the stem of the source and the suffix of the
settings, in the directory of the source or in one that is named from there.
Settings that pass their check have a suffix that a path takes, and the name
of the document is one part of a path, so only a source without a name has no
document. Two sources share a document only if they share the stem and the
directory.
-/

namespace Flowchart

namespace Path

open Text

/-! ## Parts -/

/-- The parts are names: nothing that reading a path would cut or drop. -/
def Proper (p : Path) : Prop := ∀ s ∈ p.parts, s ≠ [] ∧ s ≠ [.char '.'] ∧ .char '/' ∉ s

theorem not_mem_of_mem_splitOn {s w : RawText} (h : w ∈ s.splitOn (.char '/')) :
    .char '/' ∉ w := by
  induction s generalizing w with
  | nil =>
    rw [List.splitOn_nil, List.mem_singleton] at h
    simp [h]
  | cons p s ih =>
    rw [List.splitOn_cons_eq_if_modifyHead] at h
    by_cases hp : p = .char '/'
    · rw [if_pos (by simp [hp])] at h
      rcases List.mem_cons.1 h with rfl | h
      · simp
      · exact ih h
    · rw [if_neg (by simp [hp])] at h
      obtain ⟨v, vs, hv⟩ := List.exists_cons_of_ne_nil (List.splitOn_ne_nil (.char '/') s)
      rw [hv, List.modifyHead_cons] at h
      rcases List.mem_cons.1 h with rfl | h
      · simp only [List.mem_cons, not_or]
        exact ⟨fun heq => hp heq.symm, ih (by simp [hv])⟩
      · exact ih (by simp [hv, h])

theorem proper_ofText (s : RawText) : (ofText s).Proper := by
  intro part hpart
  obtain ⟨hmem, hkept⟩ := List.mem_filter.1 hpart
  rw [Bool.and_eq_true, bne_iff_ne, bne_iff_ne] at hkept
  exact ⟨hkept.1, hkept.2, not_mem_of_mem_splitOn hmem⟩

/-- A name is read as one part. -/
theorem ofText_name {s : RawText} (hne : s ≠ []) (hdot : s ≠ [.char '.'])
    (hs : .char '/' ∉ s) : ofText s = ⟨.relative, [s]⟩ := by
  have hroot : rootOf s = .relative := by
    have hstops : Stops (· == CodePoint.char '/') s := by
      intro p hp
      rw [beq_eq_false_iff_ne]
      rintro rfl
      exact hs (List.mem_of_mem_head? hp)
    rw [rootOf, hstops.takeWhile_eq]
    rfl
  have hparts : pathParts s = [s] := by
    rw [pathParts, List.splitOn_eq_singleton hs]
    simp [hne, hdot]
  rw [ofText, hroot, hparts]

/-- The path of a name in a directory. -/
def child (p : Path) (name : RawText) : Path := { p with parts := p.parts ++ [name] }

section
variable {p q : Path} {a b : RawText}

@[simp] theorem name_child (p : Path) (a : RawText) : (p.child a).name = a := by
  simp [name, child]

@[simp] theorem parent_child (p : Path) (a : RawText) : (p.child a).parent = p := by
  simp [parent, child]

theorem child_inj : p.child a = q.child b ↔ p = q ∧ a = b := by
  constructor
  · intro h
    have hparent := congrArg parent h
    have hname := congrArg name h
    rw [parent_child, parent_child] at hparent
    rw [name_child, name_child] at hname
    exact ⟨hparent, hname⟩
  · rintro ⟨rfl, rfl⟩
    rfl

theorem parts_of_name (h : p.name ≠ []) : p.parts = p.parts.dropLast ++ [p.name] := by
  unfold name at h ⊢
  cases hp : p.parts with
  | nil => rw [hp] at h; exact (h rfl).elim
  | cons x xs =>
    rw [List.getLastD_eq_getLast?, List.getLast?_eq_some_getLast (by simp), Option.getD_some]
    exact (List.dropLast_concat_getLast _).symm

theorem child_parent (h : p.name ≠ []) : p.parent.child p.name = p := by
  show (⟨p.root, p.parts.dropLast ++ [p.name]⟩ : Path) = p
  rw [← parts_of_name h]

theorem join_name (p : Path) (a : RawText) : p.join ⟨.relative, [a]⟩ = p.child a := rfl

/-- An absolute path hides where it is seen from, any other path keeps it. -/
theorem join_right_inj (d : Path) : p.join d = q.join d ↔ d.isAbsolute = true ∨ p = q := by
  unfold join
  cases hd : d.isAbsolute with
  | true => simp
  | false =>
    obtain ⟨root, parts⟩ := p
    obtain ⟨root', parts'⟩ := q
    simp

end

/-! ## Stem and suffix -/

/-- A name is cut at its last dot, unless that dot is its first or its last character. -/
inductive CutAtDot : RawText → RawText → RawText → Prop where
  | whole {name : RawText} :
      (∀ stem tail, name = stem ++ .char '.' :: tail → .char '.' ∉ tail → stem = [] ∨ tail = []) →
      CutAtDot name name []
  | dot {stem tail : RawText} : stem ≠ [] → tail ≠ [] → .char '.' ∉ tail →
      CutAtDot (stem ++ .char '.' :: tail) stem (.char '.' :: tail)

section
variable {name stem suffix tail : RawText}

theorem CutAtDot.eq_append (h : CutAtDot name stem suffix) : name = stem ++ suffix := by
  cases h <;> simp

theorem undotted_reverse (h : .char '.' ∉ tail) :
    ∀ p ∈ tail.reverse, (p != CodePoint.char '.') = true := by
  intro p hp
  rw [bne_iff_ne]
  rintro rfl
  exact h (List.mem_reverse.1 hp)

theorem suffixOf_of_not_mem (h : .char '.' ∉ name) : suffixOf name = [] := by
  have hrun : name.reverse.takeWhile (· != CodePoint.char '.') = name.reverse :=
    List.takeWhile_eq_self_iff.2 (undotted_reverse h)
  simp [suffixOf, hrun]

theorem suffixOf_append (h : .char '.' ∉ tail) :
    suffixOf (stem ++ .char '.' :: tail) =
      if stem = [] ∨ tail = [] then [] else .char '.' :: tail := by
  have hrun : (stem ++ .char '.' :: tail).reverse.takeWhile (· != CodePoint.char '.') =
      tail.reverse := by
    rw [List.reverse_append, List.reverse_cons, List.append_assoc]
    exact takeWhile_run (undotted_reverse h) (by simp)
  have hlength : (stem ++ .char '.' :: tail).length ≤ tail.length + 1 ↔ stem = [] := by
    rw [List.length_append, List.length_cons, ← List.length_eq_zero_iff]
    omega
  unfold suffixOf
  simp only [hrun, List.reverse_reverse, List.isEmpty_iff, Bool.or_eq_true, decide_eq_true_eq,
    hlength, or_comm]

/-- A text without a last dot, or cut there. -/
theorem exists_last_dot (name : RawText) :
    .char '.' ∉ name ∨ ∃ stem tail, name = stem ++ .char '.' :: tail ∧ .char '.' ∉ tail := by
  by_cases h : .char '.' ∈ name
  · obtain ⟨before, after, heq, hbefore⟩ := List.eq_append_cons_of_mem (List.mem_reverse.2 h)
    refine .inr ⟨after.reverse, before.reverse, ?_, by simpa using hbefore⟩
    rw [← List.reverse_reverse name, heq]
    simp
  · exact .inl h

/-- A last dot is found in one place only. -/
theorem last_dot_unique {stem' tail' : RawText} (h : .char '.' ∉ tail) (h' : .char '.' ∉ tail')
    (heq : stem ++ .char '.' :: tail = stem' ++ .char '.' :: tail') :
    stem = stem' ∧ tail = tail' := by
  have hreverse : tail.reverse ++ .char '.' :: stem.reverse =
      tail'.reverse ++ .char '.' :: stem'.reverse := by
    simpa using congrArg List.reverse heq
  obtain ⟨htail, hstem⟩ := run_unique (undotted_reverse h) (by simp) (undotted_reverse h')
    (by simp) hreverse
  exact ⟨List.reverse_inj.1 (List.cons.inj hstem).2, List.reverse_inj.1 htail⟩

theorem cutAtDot_suffixOf (name : RawText) :
    CutAtDot name (name.take (name.length - (suffixOf name).length)) (suffixOf name) := by
  rcases exists_last_dot name with hno | ⟨stem, tail, rfl, htail⟩
  · rw [suffixOf_of_not_mem hno, List.length_nil, Nat.sub_zero, List.take_length]
    refine .whole fun stem tail heq _ => ?_
    exact (hno (by simp [heq])).elim
  · rw [suffixOf_append htail]
    by_cases hends : stem = [] ∨ tail = []
    · rw [if_pos hends, List.length_nil, Nat.sub_zero, List.take_length]
      refine .whole fun stem' tail' heq htail' => ?_
      obtain ⟨rfl, rfl⟩ := last_dot_unique htail htail' heq
      exact hends
    · rw [if_neg hends, List.length_append, Nat.add_sub_cancel, List.take_left]
      exact .dot (fun h => hends (.inl h)) (fun h => hends (.inr h)) htail

end

theorem cutAtDot (p : Path) : CutAtDot p.name p.stem p.suffix := cutAtDot_suffixOf p.name

theorem name_eq_append (p : Path) : p.name = p.stem ++ p.suffix := p.cutAtDot.eq_append

/-! ## Another suffix -/

theorem allowsSuffix_of_isSuffix {s : RawText} (h : Settings.isSuffix s = true) :
    allowsSuffix s = true := by
  obtain ⟨hdot, hne, hslash, -⟩ := Settings.isSuffix_iff_ne_dot.1 h
  simp [allowsSuffix, hdot, hslash, hne]

theorem withSuffix_of_no_name {p : Path} {s : RawText} (hs : allowsSuffix s = true)
    (h : p.name = []) : p.withSuffix s = .error (.noName p.text) := by
  simp [withSuffix, hs, h]

theorem withSuffix_of_name {p : Path} {s : RawText} (hs : allowsSuffix s = true)
    (h : p.name ≠ []) : p.withSuffix s = .ok (p.parent.child (p.stem ++ s)) := by
  simp [withSuffix, hs, h, child, parent]

/-- A stem with a suffix is a name again. -/
theorem ofText_stem_append {p : Path} {s : RawText} (hp : p.Proper) (h : p.name ≠ [])
    (hs : Settings.isSuffix s = true) : ofText (p.stem ++ s) = ⟨.relative, [p.stem ++ s]⟩ := by
  obtain ⟨-, hlength, hslash, -⟩ := Settings.isSuffix_iff.1 hs
  have hname : .char '/' ∉ p.name := by
    refine (hp p.name ?_).2.2
    rw [parts_of_name h]
    simp
  have hstem : .char '/' ∉ p.stem := by
    rw [p.cutAtDot.eq_append] at hname
    exact fun hmem => hname (List.mem_append_left _ hmem)
  have hlong : 1 < (p.stem ++ s).length := by
    rw [List.length_append]
    omega
  refine ofText_name ?_ ?_ ?_
  · intro heq
    rw [heq] at hlong
    exact absurd hlong (by decide)
  · intro heq
    rw [heq] at hlong
    exact absurd hlong (by decide)
  · rw [List.mem_append, not_or]
    exact ⟨hstem, hslash⟩

end Path

open Flowchart.Path

/-! ## Outputs -/

/-- The directory that receives the document of a source. -/
def Settings.directoryFor (s : Settings) (source : Path) : Path :=
  match s.directory? with
  | none => source.parent
  | some d => source.parent.join (.ofText d)

section
variable {s : Settings} {p q : Path}

theorem defaultOutput_of_no_name (hs : Settings.isSuffix s.suffix = true) (h : p.name = []) :
    defaultOutput p s = .error (.noName p.text) := by
  rw [defaultOutput, withSuffix_of_no_name (allowsSuffix_of_isSuffix hs) h]
  rfl

theorem defaultOutput_of_name (hs : Settings.isSuffix s.suffix = true) (hp : p.Proper)
    (h : p.name ≠ []) :
    defaultOutput p s = .ok ((s.directoryFor p).child (p.stem ++ s.suffix)) := by
  rw [defaultOutput, withSuffix_of_name (allowsSuffix_of_isSuffix hs) h, Settings.directoryFor]
  cases s.directory? with
  | none => rfl
  | some d =>
    show Except.ok (((p.parent.join (.ofText d)).join (.ofText (p.parent.child _).name))) = _
    rw [name_child, ofText_stem_append hp h hs, join_name]

theorem directoryFor_inj : s.directoryFor p = s.directoryFor q ↔
    (∃ d, s.directory? = some d ∧ (ofText d).isAbsolute = true) ∨ p.parent = q.parent := by
  unfold Settings.directoryFor
  cases s.directory? with
  | none => simp
  | some d => simp [join_right_inj]

/-- Where the document goes: under the stem of the source, in its directory or in the one that is
named from there. -/
structure PlacedBy (s : Settings) (source output : Path) : Prop where
  name : output.name = source.stem ++ s.suffix
  beside : s.directory? = none → output.parent = source.parent
  apart : ∀ d, s.directory? = some d → output.parent = source.parent.join (.ofText d)
  itself : s.directory? = none → (output = source ↔ source.suffix = s.suffix)

theorem placedBy_child (h : p.name ≠ []) :
    PlacedBy s p ((s.directoryFor p).child (p.stem ++ s.suffix)) where
  name := name_child ..
  beside := by
    intro hd
    rw [parent_child, Settings.directoryFor, hd]
  apart := by
    intro d hd
    rw [parent_child, Settings.directoryFor, hd]
  itself := by
    intro hd
    rw [Settings.directoryFor, hd]
    constructor
    · intro heq
      have hname := congrArg Path.name heq
      rw [name_child, name_eq_append] at hname
      exact (List.append_cancel_left hname).symm
    · intro heq
      rw [← heq, ← name_eq_append, child_parent h]

/-- Two sources with names share their document if and only if they share the stem and the
directory of their documents. -/
theorem defaultOutput_eq_iff (hs : Settings.isSuffix s.suffix = true) (hp : p.Proper)
    (hq : q.Proper) (hpn : p.name ≠ []) (hqn : q.name ≠ []) :
    defaultOutput p s = defaultOutput q s ↔
      p.stem = q.stem ∧ s.directoryFor p = s.directoryFor q := by
  rw [defaultOutput_of_name hs hp hpn, defaultOutput_of_name hs hq hqn, Except.ok.injEq, child_inj,
    List.append_left_inj, and_comm]

end

/-- Under settings that pass the check, exactly the sources without a name have no document. Any
other source has its document under its stem, and two sources share it only if they share the stem
and, unless the directory of the documents is absolute, their own directory. -/
theorem default_outputs_placed {data : Value} {s : Settings} (h : Settings.ofValue data = .ok s)
    (a b : RawText) :
    let p := Path.ofText a
    let q := Path.ofText b
    CutAtDot p.name p.stem p.suffix ∧
      (∀ f, defaultOutput p s = .error f ↔ p.name = [] ∧ f = .noName p.text) ∧
      (p.name ≠ [] → ∃ output, defaultOutput p s = .ok output ∧ PlacedBy s p output) ∧
      (p.name ≠ [] → q.name ≠ [] →
        (defaultOutput p s = defaultOutput q s ↔
          p.stem = q.stem ∧
            ((∃ d, s.directory? = some d ∧ (Path.ofText d).isAbsolute = true) ∨
              p.parent = q.parent))) := by
  intro p q
  have hs : Settings.isSuffix s.suffix = true := Settings.isSuffix_of_ofValue h
  have hp : p.Proper := proper_ofText a
  refine ⟨p.cutAtDot, fun f => ?_, fun hn => ⟨_, defaultOutput_of_name hs hp hn, placedBy_child hn⟩,
    fun hpn hqn => ?_⟩
  · by_cases hn : p.name = []
    · rw [defaultOutput_of_no_name hs hn, Except.error.injEq]
      exact ⟨fun hf => ⟨hn, hf.symm⟩, fun hf => hf.2.symm⟩
    · rw [defaultOutput_of_name hs hp hn]
      exact ⟨fun hf => (by cases hf), fun hf => (hn hf.1).elim⟩
  · rw [defaultOutput_eq_iff hs hp (proper_ofText b) hpn hqn, directoryFor_inj]

/-- Of the two sources one is written with a slash too many and the other with a dot; their
documents meet. -/
theorem default_outputs_placed_shared_stem :
    let data : Value :=
      .map [(.str "output_directory", .str "../out"), (.str "output-suffix", .str ".tar.gz")]
    let s : Settings := ⟨".tar.gz", some "../out", true⟩
    Settings.ofValue data = .ok s ∧
      defaultOutput (.ofText "x//a.b.fml") s = defaultOutput (.ofText "x/./a.b.flow") s ∧
      (∃ output, defaultOutput (.ofText "x//a.b.fml") s = .ok output ∧
        output.name = "a.b.tar.gz") ∧
      defaultOutput (.ofText "//") s = .error (.noName "//") := by
  intro data s
  have hs : Settings.ofValue data = .ok s := by decide +kernel
  obtain ⟨-, -, hplaced, hshared⟩ := default_outputs_placed hs "x//a.b.fml" "x/./a.b.flow"
  obtain ⟨output, houtput, hplace⟩ := hplaced (by decide +kernel)
  refine ⟨hs, ?_, ⟨output, houtput, ?_⟩, ?_⟩
  · exact (hshared (by decide +kernel) (by decide +kernel)).2
      ⟨by decide +kernel, .inr (by decide +kernel)⟩
  · rw [hplace.name]
    decide +kernel
  · exact ((default_outputs_placed hs "//" "").2.1 _).2 ⟨by decide +kernel, by decide +kernel⟩

end Flowchart

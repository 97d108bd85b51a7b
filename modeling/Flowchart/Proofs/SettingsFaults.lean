import Flowchart.Proofs.YamlValues
import Flowchart.Settings.File
import Mathlib.Tactic.Common

/-!
# Faults of settings files

A file of settings is loaded with a proper suffix, or reported, as long as it
is a text whose scalars keep what their spelling promises. Other faults are not
reported: bytes that are no text, faults of the reader that are not in the
grammar, and scalars without the value they promise. In a flat file the last
are exactly the scalars that do not fit.
-/

namespace Flowchart.Settings

open Schema

/-! ## Suffixes -/

theorem isSuffix_iff {s : RawText} : isSuffix s = true ↔
    s.head? = some (.char '.') ∧ 1 < s.length ∧ .char '/' ∉ s ∧ .char '\\' ∉ s := by
  unfold isSuffix
  split
  · simp [List.mem_cons, not_or]
  · rename_i hs
    constructor
    · intro h; cases h
    · rintro ⟨hhead, hlength, -⟩
      match s with
      | [] => cases hhead
      | [p] => exact absurd hlength (Nat.lt_irrefl 1)
      | p :: q :: ps =>
        cases hhead
        exact (hs q ps rfl).elim

theorem isSuffix_iff_ne_dot {s : RawText} : isSuffix s = true ↔
    s.head? = some (.char '.') ∧ s ≠ [.char '.'] ∧ .char '/' ∉ s ∧ .char '\\' ∉ s := by
  rw [isSuffix_iff]
  refine and_congr_right fun hdot => and_congr_left fun _ => ?_
  -- a text that starts with a dot is longer than the dot unless it is the dot
  obtain ⟨ps, rfl⟩ := List.head?_eq_some_iff.1 hdot
  cases ps <;> simp

theorem isSuffix_default : isSuffix ({} : Settings).suffix = true := by decide

theorem isSuffix_of_checkSuffix {v : Value} {s : RawText} (h : checkSuffix v = .ok s) :
    isSuffix s = true := by
  unfold checkSuffix at h
  split at h
  · cases h
  · split at h
    · rename_i hs
      cases h
      exact hs
    · cases h

/-- A field has its default or a value that passed the check. -/
theorem field_eq_ok {α : Type} {entries : List (Value × Value)} {spellings : List RawText}
    {default a : α} {check : Value → Except Problem α}
    (h : field entries spellings default check = .ok a) :
    a = default ∨ ∃ v, check v = .ok a := by
  unfold field at h
  split at h
  · cases h
    exact .inl rfl
  · split at h
    · cases h
      exact .inl rfl
    · rename_i v _
      unfold within here at h
      cases hc : check v with
      | error p => rw [hc] at h; cases h
      | ok b =>
        rw [hc] at h
        cases h
        exact .inr ⟨v, hc⟩

theorem isSuffix_of_ofEntries {entries : List (Value × Value)} {s : Settings}
    (h : ofEntries entries = .ok s) : isSuffix s.suffix = true := by
  unfold ofEntries withKeys checkEntries at h
  split at h
  · cases h
  · dsimp only at h
    split at h
    · rename_i hsuffix _ _ _
      cases h
      rcases field_eq_ok hsuffix with rfl | ⟨v, hv⟩
      · exact isSuffix_default
      · exact isSuffix_of_checkSuffix hv
    · cases h

theorem isSuffix_of_ofValue {data : Value} {s : Settings} (h : ofValue data = .ok s) :
    isSuffix s.suffix = true := by
  unfold ofValue at h
  split at h
  · exact isSuffix_of_ofEntries h
  · cases h

theorem isSuffix_of_ofText {path : String} {cs : List Char} {s : Settings}
    (h : ofText path cs = .ok s) : isSuffix s.suffix = true := by
  unfold ofText at h
  split at h
  · cases h
  · cases h
  · cases h
    exact isSuffix_default
  · rename_i entries _
    cases he : ofEntries entries with
    | error fs => rw [he] at h; cases h
    | ok s' =>
      rw [he] at h
      cases h
      exact isSuffix_of_ofEntries he
  · cases h

/-! ## Faults -/

/-- Of a text only faults of its values and of its reading are not reported. -/
theorem ofText_fault {path : String} {cs : List Char} {f : SettingsFault}
    (h : ofText path cs = .error f) :
    f.isReported = true ∨ ∃ y, f = .scalar y ∧ Yaml.load cs = .error y ∧ y ≠ .malformed := by
  unfold ofText at h
  split at h
  · cases h
    exact .inl rfl
  · rename_i y hne hy
    cases h
    exact .inr ⟨y, rfl, hy, hne⟩
  · cases h
  · rename_i entries _
    cases he : ofEntries entries with
    | error fs =>
      rw [he] at h
      cases h
      exact .inl rfl
    | ok s => rw [he] at h; cases h
  · cases h
    exact .inl rfl

theorem ofText_of_fault {path : String} {cs : List Char} {y : Yaml.Fault}
    (h : Yaml.load cs = .error y) (hne : y ≠ .malformed) : ofText path cs = .error (.scalar y) := by
  unfold ofText
  rw [h]
  cases y with
  | malformed => exact (hne rfl).elim
  | _ => rfl

section
variable {t : FileTree} {p : Path} {bytes : List UInt8} {cs : List Char}

theorem load_of_text (h : t.readFile p = .ok bytes) (hdec : Text.decodeUtf8 bytes = .ok cs) :
    load t p = ofText p.text (Text.unifyNewlines cs) := by
  simp only [load, FileTree.readText, h, hdec, bind, Except.bind, pure, Except.pure]

theorem load_of_garbled {f : Text.Utf8Fault} (h : t.readFile p = .ok bytes)
    (hdec : Text.decodeUtf8 bytes = .error f) : load t p = .error (.file (.notText f)) := by
  simp only [load, FileTree.readText, h, hdec, bind, Except.bind]

theorem load_eq_ok {s : Settings} (h : load t p = .ok s) : isSuffix s.suffix = true := by
  unfold load at h
  split at h
  · exact isSuffix_of_ofText h
  all_goals cases h

theorem isReported_of_regular (h : t.readFile p = .ok bytes)
    (hdec : Text.decodeUtf8 bytes = .ok cs) (hcs : Yaml.Regular (Text.unifyNewlines cs))
    {f : SettingsFault} (hf : load t p = .error f) : f.isReported = true := by
  rw [load_of_text h hdec] at hf
  rcases ofText_fault hf with hr | ⟨y, -, hy, hne⟩
  · exact hr
  · exact (hne (hcs.load_proper.fault hy)).elim

theorem load_of_reading_fault (h : t.readFile p = .ok bytes)
    (hdec : Text.decodeUtf8 bytes = .ok cs)
    (hcs : (Text.unifyNewlines cs).all Yaml.isAllowed = true) {y : Yaml.Fault}
    (hy : Yaml.readDocument (Text.unifyNewlines cs) = .error y) (hne : y ≠ .malformed) :
    load t p = .error (.scalar y) := by
  rw [load_of_text h hdec]
  refine ofText_of_fault ?_ hne
  unfold Yaml.load
  rw [hcs, hy]
  rfl

theorem load_flat_iff (h : t.readFile p = .ok bytes) (hdec : Text.decodeUtf8 bytes = .ok cs)
    (hcs : (Text.unifyNewlines cs).all Yaml.isAllowed = true) {root : Nat} {g : Yaml.Graph}
    (hd : Yaml.readDocument (Text.unifyNewlines cs) = .ok (some (root, g))) (hg : g.Flat root) :
    (∃ y, load t p = .error (.scalar y)) ↔ g.valuesFit (g.pairs root) = false := by
  have hends := Yaml.load_flat hcs hd hg
  rw [load_of_text h hdec]
  cases hy : Yaml.load (Text.unifyNewlines cs) with
  | ok v =>
    rw [hy] at hends
    constructor
    · rintro ⟨y, hf⟩
      rcases ofText_fault hf with hr | ⟨_, -, hy', -⟩
      · cases hr
      · rw [hy] at hy'; cases hy'
    · intro hfit
      rw [hfit] at hends
      cases hends.2
  | error y =>
    rw [hy] at hends
    exact ⟨fun _ => hends.2, fun _ => ⟨y, ofText_of_fault hy hends.1⟩⟩

/-- Settings that are loaded have a proper suffix. A text that is regular is loaded or reported.
Bytes that are no text are not reported, nor are the faults of the reader but a malformed text,
nor, in a flat file, is a scalar that does not fit its tag. -/
theorem load_regular_reported (h : t.readFile p = .ok bytes) :
    (∀ s, load t p = .ok s → s.suffix.head? = some (.char '.') ∧ 1 < s.suffix.length ∧
      .char '/' ∉ s.suffix ∧ .char '\\' ∉ s.suffix) ∧
    (∀ f, Text.decodeUtf8 bytes = .error f → load t p = .error (.file (.notText f))) ∧
    ∀ cs, Text.decodeUtf8 bytes = .ok cs →
      (Yaml.Regular (Text.unifyNewlines cs) → ∀ f, load t p = .error f → f.isReported = true) ∧
      ((Text.unifyNewlines cs).all Yaml.isAllowed = true →
        (∀ y, Yaml.readDocument (Text.unifyNewlines cs) = .error y → y ≠ .malformed →
          load t p = .error (.scalar y) ∧ y.OfReading) ∧
        ∀ root g, Yaml.readDocument (Text.unifyNewlines cs) = .ok (some (root, g)) →
          g.Flat root →
          ((∃ y, load t p = .error (.scalar y)) ↔ g.valuesFit (g.pairs root) = false)) := by
  refine ⟨fun s hs => isSuffix_iff.1 (load_eq_ok hs), fun f hdec => load_of_garbled h hdec,
    fun cs hdec => ⟨fun hcs f hf => isReported_of_regular h hdec hcs hf,
      fun hcs => ⟨fun y hy hne => ⟨load_of_reading_fault h hdec hcs hy hne, ?_⟩,
        fun root g hd hg => load_flat_iff h hdec hcs hd hg⟩⟩⟩
  exact (Yaml.readDocument_orderly _).fault hy

end

/-- Of the two files the first is reported for its suffix, the second not for its date. -/
theorem load_regular_reported_suffix_and_date :
    let bad := "output-suffix: md\n"
    let dated := "output-suffix: 2020-13-01\n"
    let t : FileTree :=
      ⟨[(["a"], .file (Text.encodeUtf8 bad)), (["b"], .file (Text.encodeUtf8 dated))], []⟩
    t.readFile (.ofText "a") = .ok (Text.encodeUtf8 bad) ∧
      t.readFile (.ofText "b") = .ok (Text.encodeUtf8 dated) ∧
      (∃ f, load t (.ofText "a") = .error f ∧ f.isReported = true) ∧
      ∃ y, load t (.ofText "b") = .error (.scalar y) := by
  intro bad dated t
  have ha : t.readFile (.ofText "a") = .ok (Text.encodeUtf8 bad) := by decide +kernel
  have hb : t.readFile (.ofText "b") = .ok (Text.encodeUtf8 dated) := by decide +kernel
  have hda : Text.decodeUtf8 (Text.encodeUtf8 bad) = .ok bad.toList := by decide +kernel
  have hdb : Text.decodeUtf8 (Text.encodeUtf8 dated) = .ok dated.toList := by decide +kernel
  have hua : Text.unifyNewlines bad.toList = bad.toList := by decide +kernel
  have hub : Text.unifyNewlines dated.toList = dated.toList := by decide +kernel
  let key : Yaml.Node := ⟨.str, .scalar (Text.codePoints "output-suffix".toList)⟩
  let ga : Yaml.Graph :=
    ⟨#[⟨.map, .mapping [(1, 2)]⟩, key, ⟨.str, .scalar (Text.codePoints "md".toList)⟩]⟩
  let gb : Yaml.Graph := ⟨#[⟨.map, .mapping [(1, 2)]⟩, key,
    ⟨.timestamp, .scalar (Text.codePoints "2020-13-01".toList)⟩]⟩
  have hra : Yaml.readDocument bad.toList = .ok (some (0, ga)) := by decide +kernel
  have hrb : Yaml.readDocument dated.toList = .ok (some (0, gb)) := by decide +kernel
  have hregular : Yaml.Regular bad.toList :=
    { reads := fun f hf => by rw [hra] at hf; cases hf
      sound := fun root g hg => by rw [hra] at hg; cases hg; decide +kernel }
  have hflat : gb.Flat 0 :=
    { tag := rfl
      mapping := rfl
      keys := by decide +kernel
      values := by decide +kernel }
  have hfault : (load t (.ofText "a")).isOk = false := by decide +kernel
  refine ⟨ha, hb, ?_, ?_⟩
  · cases hf : load t (.ofText "a") with
    | ok s => rw [hf] at hfault; cases hfault
    | error f =>
      refine ⟨f, rfl, ((load_regular_reported ha).2.2 _ hda).1 ?_ f hf⟩
      rw [hua]
      exact hregular
  · have hallowed : (Text.unifyNewlines dated.toList).all Yaml.isAllowed = true := by
      decide +kernel
    have hiff := (((load_regular_reported hb).2.2 _ hdb).2 hallowed).2 0 gb (by rw [hub, hrb])
    exact (hiff hflat).2 (by decide +kernel)

/-- The byte `0xff` stands in no text, and the year has no thirteenth month. -/
theorem lone_byte_and_date_not_reported :
    let t : FileTree := ⟨[(["a"], .file [0xff]),
      (["b"], .file (Text.encodeUtf8 "output-suffix: 2020-13-01\n"))], []⟩
    let garbled := SettingsFault.file (.notText ⟨0xff, 0, 1, .invalidStart⟩)
    let dated := SettingsFault.scalar (.calendar .month)
    (load t (.ofText "a") = .error garbled ∧ garbled.isReported = false) ∧
      load t (.ofText "b") = .error dated ∧ dated.isReported = false := by
  decide +kernel

end Flowchart.Settings

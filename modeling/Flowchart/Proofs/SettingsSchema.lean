import Flowchart.Proofs.Json
import Flowchart.Proofs.SettingsFaults
import Mathlib.Data.List.Forall2

/-!
# The schema of the settings

An object gives settings if and only if it has no key but the spellings of the
fields, no field under two spellings, and a proper value for each field that it
gives. The settings hold these values, whatever the order and the spelling of
the keys. Otherwise every field with another value is reported once, in the
order of the fields, and then every key that gives no field, in the order of
the keys. Only a key with a surrogate hides all these faults.
-/

namespace Flowchart.Settings

open Schema Value

/-- The fields, in the order of their declaration. -/
inductive Field where
  | suffix
  | directory
  | fenced
  deriving DecidableEq, Repr

namespace Field

def all : List Field := [.suffix, .directory, .fenced]

def spellings : Field → List RawText
  | suffix => ["output-suffix", "output_suffix"]
  | directory => ["output-directory", "output_directory"]
  | fenced => ["fenced"]

/-- The values that a field takes. -/
def Takes : Field → Value → Prop
  | suffix, v => ∃ s, v = .str s ∧ s.head? = some (.char '.') ∧ s ≠ [.char '.'] ∧
      .char '/' ∉ s ∧ .char '\\' ∉ s
  | directory, v => v = .null ∨ ∃ s, v = .str s
  | fenced, v => ∃ b, MeansBool v b

/-- The settings hold what a value of a field stands for. -/
def Reads : Field → Value → Settings → Prop
  | suffix, v, s => v = .str s.suffix
  | directory, v, s => v = s.directory?.elim .null .str
  | fenced, v, s => MeansBool v s.fenced

/-- The settings hold the default of a field. -/
def IsDefault : Field → Settings → Prop
  | suffix, s => s.suffix = ".md"
  | directory, s => s.directory? = none
  | fenced, s => s.fenced = true

/-- What is wrong with a value that a field does not take. -/
def problem : Field → Value → Problem
  | suffix, .str s => .badSuffix (Text.quotedCodePoints s)
  | suffix, _ => .notText
  | directory, _ => .notText
  | fenced, v => boolProblem v

end Field

section
variable (members : List (RawText × Value))

/-- The members give a field some value, under one of its spellings. -/
def Gives (f : Field) (v : Value) : Prop := ∃ k ∈ f.spellings, (k, v) ∈ members

/-- An object that fits the schema. -/
structure InSchema : Prop where
  known : ∀ m ∈ members, ∃ f : Field, m.1 ∈ f.spellings
  once : ∀ f : Field, ∀ k ∈ f.spellings, ∀ k' ∈ f.spellings,
    k ∈ members.map Prod.fst → k' ∈ members.map Prod.fst → k = k'
  fits : ∀ f v, Gives members f v → f.Takes v

/-- The settings that the members give. -/
def Settles (s : Settings) : Prop :=
  ∀ f, (∀ v, Gives members f v → f.Reads v s) ∧ ((∀ v, ¬Gives members f v) → f.IsDefault s)

/-- The value of a field is taken from the member `k`: of its spellings the first one that is
there. -/
structure Uses (spellings : List RawText) (k : RawText) (v : Value) : Prop where
  member : (k, v) ∈ members
  first : ∃ before after, spellings = before ++ k :: after ∧
    ∀ k' ∈ before, k' ∉ members.map Prod.fst

/-- The field is given with a value that it does not take. -/
def Offends (f : Field) : Prop := ∃ k v, Uses members f.spellings k v ∧ ¬f.Takes v

/-- A key that gives no field. -/
def IsExtra (k : RawText) : Prop :=
  k ∈ members.map Prod.fst ∧ ∀ f v, ¬Uses members (Field.spellings f) k v

/-- Some key has a surrogate. -/
def BrokenKey : Prop := ∃ k ∈ members.map Prod.fst, Text.hasSurrogate k = true

/-- A fault names the member that gives a field, and what is wrong with its value. -/
def Blames (f : Field) (fault : Fault) : Prop :=
  ∃ k v, Uses members f.spellings k v ∧ ¬f.Takes v ∧ fault = ⟨[.key k], f.problem v⟩

/-- The faults are those of the offending fields, in the order of the fields, and then those of
the extra keys, in the order of the keys; each has one. -/
structure Reports (bad : List Field) (extra : List RawText) (fs : List Fault) : Prop where
  fields_in_order : bad.Sublist Field.all
  fields_offend : ∀ f, f ∈ bad ↔ Offends members f
  keys_in_order : extra.Sublist (members.map Prod.fst)
  keys_extra : ∀ k, k ∈ extra ↔ IsExtra members k
  faults_eq : ∃ marks, List.Forall₂ (Blames members) bad marks ∧
    fs = marks ++ extra.map fun k => ⟨[.key k], .extra⟩

end

/-! ## The member that gives a field -/

section
variable {members : List (RawText × Value)} {spellings : List RawText} {k k' : RawText}
  {v v' : Value}

theorem spelling?_eq_some_iff : spelling? (entriesOf members) spellings = some k ↔
    k ∈ members.map Prod.fst ∧ ∃ before after, spellings = before ++ k :: after ∧
      ∀ k' ∈ before, k' ∉ members.map Prod.fst := by
  unfold spelling?
  rw [List.find?_eq_some_iff_append, lookup?_isSome_iff]
  simp only [Bool.not_eq_true', Bool.eq_false_iff, ne_eq, lookup?_isSome_iff]

theorem spelling?_eq_none_iff : spelling? (entriesOf members) spellings = none ↔
    ∀ k ∈ spellings, k ∉ members.map Prod.fst := by
  unfold spelling?
  rw [List.find?_eq_none]
  simp only [lookup?_isSome_iff]

theorem Uses.spelling (h : Uses members spellings k v) : k ∈ spellings := by
  obtain ⟨before, after, rfl, -⟩ := h.first
  simp

theorem Uses.key (h : Uses members spellings k v) : k ∈ members.map Prod.fst :=
  List.mem_map.2 ⟨_, h.member, rfl⟩

theorem Uses.spelling?_eq (h : Uses members spellings k v) :
    spelling? (entriesOf members) spellings = some k :=
  spelling?_eq_some_iff.2 ⟨h.key, h.first⟩

theorem exists_uses_of_spelling? (h : spelling? (entriesOf members) spellings = some k) :
    ∃ v, Uses members spellings k v := by
  obtain ⟨hkey, hfirst⟩ := spelling?_eq_some_iff.1 h
  obtain ⟨⟨_, v⟩, hmem, rfl⟩ := List.mem_map.1 hkey
  exact ⟨v, hmem, hfirst⟩

/-- No key is given twice, so a field is taken from one member at most. -/
theorem Uses.unique (hkeys : (members.map Prod.fst).Nodup) (h : Uses members spellings k v)
    (h' : Uses members spellings k' v') : k = k' ∧ v = v' := by
  have hk : k = k' := Option.some.inj (h.spelling?_eq.symm.trans h'.spelling?_eq)
  subst hk
  have hv := (lookup?_eq_some_iff hkeys).2 h.member
  rw [(lookup?_eq_some_iff hkeys).2 h'.member] at hv
  exact ⟨rfl, (Option.some.inj hv).symm⟩

/-- A field that is given in one spelling only is taken from there. -/
theorem uses_of_once (hspellings : spellings.Nodup) (hk : k ∈ spellings) (hmem : (k, v) ∈ members)
    (honce : ∀ k' ∈ spellings, k' ∈ members.map Prod.fst → k' = k) :
    Uses members spellings k v := by
  obtain ⟨before, after, rfl⟩ := List.append_of_mem hk
  refine ⟨hmem, before, after, rfl, fun k' hk' hkey => ?_⟩
  obtain rfl := honce k' (by simp [hk']) hkey
  exact (List.nodup_append.1 hspellings).2.2 k' hk' k' (by simp) rfl

/-! ## One field -/

section
variable {α : Type} {default a : α} {check : Value → Except Problem α}

theorem field_of_uses (hkeys : (members.map Prod.fst).Nodup) (h : Uses members spellings k v) :
    field (entriesOf members) spellings default check = within (.key k) (here (check v)) := by
  unfold field
  simp only [h.spelling?_eq, (lookup?_eq_some_iff hkeys).2 h.member]

theorem field_of_none (h : ∀ k ∈ spellings, k ∉ members.map Prod.fst) :
    field (entriesOf members) spellings default check = .ok default := by
  unfold field
  simp only [spelling?_eq_none_iff.2 h]

/-- A field is given by one member, or its spellings are not among the keys. -/
theorem exists_uses_or_none (members : List (RawText × Value)) (spellings : List RawText) :
    (∃ k v, Uses members spellings k v) ∨ ∀ k ∈ spellings, k ∉ members.map Prod.fst := by
  cases h : spelling? (entriesOf members) spellings with
  | none => exact .inr (spelling?_eq_none_iff.1 h)
  | some k =>
    obtain ⟨v, hv⟩ := exists_uses_of_spelling? h
    exact .inl ⟨k, v, hv⟩

/-- A check that says what it reads says so of the member that gives the field. -/
theorem field_eq_ok_iff {reads : Value → Prop} (hjson : (object members).IsJson)
    (hcheck : ∀ v : Value, v.IsJson → (check v = .ok a ↔ reads v)) :
    field (entriesOf members) spellings default check = .ok a ↔
      (∀ k v, Uses members spellings k v → reads v) ∧
        ((∀ k ∈ spellings, k ∉ members.map Prod.fst) → a = default) := by
  obtain ⟨hkeys, hvalues⟩ := isJson_object_iff.1 hjson
  rcases exists_uses_or_none members spellings with ⟨k, v, h⟩ | hnone
  · have hwithin : within (.key k) (here (check v)) = .ok a ↔ check v = .ok a := by
      cases check v <;> simp [within, here, Except.mapError]
    rw [field_of_uses hkeys h, hwithin, hcheck v (hvalues _ h.member)]
    constructor
    · intro hv
      refine ⟨fun k' v' h' => ?_, fun hnone => (hnone k h.spelling h.key).elim⟩
      obtain ⟨rfl, rfl⟩ := h.unique hkeys h'
      exact hv
    · exact fun hall => hall.1 k v h
  · rw [field_of_none hnone, Except.ok.injEq]
    constructor
    · intro ha
      exact ⟨fun k v h => (hnone k h.spelling h.key).elim, fun _ => ha.symm⟩
    · exact fun hall => (hall.2 hnone).symm

/-- A check with its own rule: what it takes, and what is wrong with anything else. -/
structure Judges (check : Value → Except Problem α) (takes : Value → Prop)
    (problem : Value → Problem) : Prop where
  taken : ∀ v : Value, v.IsJson → takes v → ∃ a, check v = .ok a
  refused : ∀ v : Value, v.IsJson → ¬takes v → check v = .error (problem v)

theorem exists_field_eq_ok {takes : Value → Prop} {problem : Value → Problem}
    (hjson : (object members).IsJson) (hcheck : Judges check takes problem)
    (htakes : ∀ k v, Uses members spellings k v → takes v) :
    ∃ a, field (entriesOf members) spellings default check = .ok a := by
  obtain ⟨hkeys, hvalues⟩ := isJson_object_iff.1 hjson
  rcases exists_uses_or_none members spellings with ⟨k, v, h⟩ | hnone
  · obtain ⟨a, ha⟩ := hcheck.taken v (hvalues _ h.member) (htakes k v h)
    exact ⟨a, by rw [field_of_uses hkeys h, ha]; rfl⟩
  · exact ⟨default, field_of_none hnone⟩

/-- A field has no fault, or the one of the member that gives it. -/
theorem faults_field {takes : Value → Prop} {problem : Value → Problem}
    (hjson : (object members).IsJson) (hcheck : Judges check takes problem) :
    faults (field (entriesOf members) spellings default check) = [] ∧
        (∀ k v, Uses members spellings k v → takes v) ∨
      ∃ k v, Uses members spellings k v ∧ ¬takes v ∧
        faults (field (entriesOf members) spellings default check) = [⟨[.key k], problem v⟩] := by
  obtain ⟨hkeys, hvalues⟩ := isJson_object_iff.1 hjson
  rcases exists_uses_or_none members spellings with ⟨k, v, h⟩ | hnone
  · have hv := hvalues _ h.member
    rw [field_of_uses hkeys h]
    by_cases htakes : takes v
    · obtain ⟨a, ha⟩ := hcheck.taken v hv htakes
      refine .inl ⟨by rw [ha]; rfl, fun k' v' h' => ?_⟩
      obtain ⟨rfl, rfl⟩ := h.unique hkeys h'
      exact htakes
    · exact .inr ⟨k, v, h, htakes, by rw [hcheck.refused v hv htakes]; rfl⟩
  · rw [field_of_none hnone]
    exact .inl ⟨rfl, fun k v h => (hnone k h.spelling h.key).elim⟩

end

end

/-! ## The checks of the fields -/

section
variable {v : Value}

theorem checkSuffix_str (s : RawText) : checkSuffix (.str s) =
    if isSuffix s then .ok s else .error (.badSuffix (Text.quotedCodePoints s)) := rfl

theorem checkSuffix_of_error {p : Problem} (h : asText v = .error p) :
    checkSuffix v = .error p := by
  unfold checkSuffix
  rw [h]

theorem takes_suffix_iff : Field.suffix.Takes v ↔ ∃ s, v = .str s ∧ isSuffix s = true := by
  simp only [isSuffix_iff_ne_dot]
  rfl

theorem checkSuffix_eq_ok_iff (hv : v.IsJson) {s : RawText} :
    checkSuffix v = .ok s ↔ v = .str s ∧ isSuffix s = true := by
  cases ht : asText v with
  | error p =>
    obtain ⟨-, hne⟩ := asText_eq_error hv ht
    rw [checkSuffix_of_error ht]
    exact iff_of_false (fun h => by cases h) fun h => hne s h.1
  | ok s' =>
    obtain rfl := (asText_eq_ok_iff hv).1 ht
    rw [checkSuffix_str, Value.str.injEq]
    by_cases hs : isSuffix s' = true
    · rw [if_pos hs, Except.ok.injEq]
      constructor
      · rintro rfl
        exact ⟨rfl, hs⟩
      · exact And.left
    · rw [if_neg hs]
      refine iff_of_false (fun h => by cases h) ?_
      rintro ⟨rfl, h⟩
      exact hs h

theorem judges_suffix : Judges checkSuffix Field.suffix.Takes Field.suffix.problem where
  taken := by
    intro v hv htakes
    obtain ⟨s, rfl, hs⟩ := takes_suffix_iff.1 htakes
    exact ⟨s, (checkSuffix_eq_ok_iff hv).2 ⟨rfl, hs⟩⟩
  refused := by
    intro v hv htakes
    cases ht : asText v with
    | error p =>
      obtain ⟨rfl, hne⟩ := asText_eq_error hv ht
      rw [checkSuffix_of_error ht]
      cases hv with
      | str s => exact (hne s rfl).elim
      | _ => rfl
    | ok s =>
      obtain rfl := (asText_eq_ok_iff hv).1 ht
      rw [checkSuffix_str, if_neg fun hs => htakes (takes_suffix_iff.2 ⟨s, rfl, hs⟩)]
      rfl

theorem checkDirectory_eq_ok_iff (hv : v.IsJson) {d : Option RawText} :
    checkDirectory v = .ok d ↔ v = d.elim .null .str := by
  cases hv with
  | null => cases d <;> simp [checkDirectory]
  | str s => cases d <;> simp [checkDirectory, asText, Except.map]
  | _ => cases d <;> simp [checkDirectory, asText, Except.map]

theorem takes_directory_elim (d : Option RawText) :
    Field.directory.Takes (d.elim .null .str) := by
  cases d with
  | none => exact .inl rfl
  | some s => exact .inr ⟨s, rfl⟩

theorem judges_directory : Judges checkDirectory Field.directory.Takes Field.directory.problem where
  taken := by
    rintro v hv (rfl | ⟨s, rfl⟩)
    · exact ⟨none, rfl⟩
    · exact ⟨some s, rfl⟩
  refused := by
    intro v hv htakes
    cases hv with
    | null => exact (htakes (.inl rfl)).elim
    | str s => exact (htakes (.inr ⟨s, rfl⟩)).elim
    | _ => rfl

theorem judges_fenced : Judges asBool Field.fenced.Takes Field.fenced.problem where
  taken := by
    rintro v hv ⟨b, hb⟩
    exact ⟨b, (asBool_eq_ok_iff hv).2 hb⟩
  refused := by
    intro v hv htakes
    cases h : asBool v with
    | ok b => exact (htakes ⟨b, (asBool_eq_ok_iff hv).1 h⟩).elim
    | error p => rw [asBool_eq_error hv h]; rfl

end

/-! ## All fields -/

section
variable {members : List (RawText × Value)} {s : Settings}

/-- The check of a field gives what the settings hold. -/
def Field.Passes (entries : List (Value × Value)) (s : Settings) : Field → Prop
  | suffix => field entries suffixSpellings (".md" : RawText) checkSuffix = .ok s.suffix
  | directory => field entries directorySpellings none checkDirectory = .ok s.directory?
  | fenced => field entries fencedSpellings true asBool = .ok s.fenced

def Field.faults (entries : List (Value × Value)) : Field → List Fault
  | suffix => Schema.faults (field entries suffixSpellings (".md" : RawText) checkSuffix)
  | directory => Schema.faults (field entries directorySpellings none checkDirectory)
  | fenced => Schema.faults (field entries fencedSpellings true asBool)

theorem Field.passes_iff (hjson : (object members).IsJson) (f : Field) :
    f.Passes (entriesOf members) s ↔
      (∀ k v, Uses members f.spellings k v → f.Takes v ∧ f.Reads v s) ∧
        ((∀ k ∈ f.spellings, k ∉ members.map Prod.fst) → f.IsDefault s) := by
  cases f with
  | suffix =>
    refine field_eq_ok_iff hjson fun v hv => ?_
    rw [checkSuffix_eq_ok_iff hv, takes_suffix_iff]
    constructor
    · rintro ⟨rfl, hs⟩
      exact ⟨⟨_, rfl, hs⟩, rfl⟩
    · rintro ⟨⟨s', rfl, hs⟩, hreads⟩
      obtain rfl := Value.str.inj hreads
      exact ⟨rfl, hs⟩
  | directory =>
    refine field_eq_ok_iff hjson fun v hv => ?_
    rw [checkDirectory_eq_ok_iff hv]
    constructor
    · rintro rfl
      exact ⟨takes_directory_elim s.directory?, rfl⟩
    · exact And.right
  | fenced =>
    refine field_eq_ok_iff hjson fun v hv => ?_
    rw [asBool_eq_ok_iff hv]
    exact ⟨fun hb => ⟨⟨_, hb⟩, hb⟩, And.right⟩

theorem Field.faults_cases (hjson : (object members).IsJson) (f : Field) :
    f.faults (entriesOf members) = [] ∧ ¬Offends members f ∨
      ∃ fault, Blames members f fault ∧ f.faults (entriesOf members) = [fault] := by
  have hcases : f.faults (entriesOf members) = [] ∧
        (∀ k v, Uses members f.spellings k v → f.Takes v) ∨
      ∃ k v, Uses members f.spellings k v ∧ ¬f.Takes v ∧
        f.faults (entriesOf members) = [⟨[.key k], f.problem v⟩] := by
    cases f with
    | suffix => exact faults_field hjson judges_suffix
    | directory => exact faults_field hjson judges_directory
    | fenced => exact faults_field hjson judges_fenced
  rcases hcases with ⟨hnil, htakes⟩ | ⟨k, v, h, htakes, hone⟩
  · exact .inl ⟨hnil, fun ⟨k, v, h, hnot⟩ => hnot (htakes k v h)⟩
  · exact .inr ⟨_, ⟨k, v, h, htakes, rfl⟩, hone⟩

theorem exists_passes (hjson : (object members).IsJson)
    (htakes : ∀ (f : Field) k v, Uses members f.spellings k v → f.Takes v) :
    ∃ s, ∀ f : Field, f.Passes (entriesOf members) s := by
  obtain ⟨suffix, hsuffix⟩ := exists_field_eq_ok hjson judges_suffix (htakes .suffix)
  obtain ⟨directory, hdirectory⟩ := exists_field_eq_ok hjson judges_directory (htakes .directory)
  obtain ⟨fenced, hfenced⟩ := exists_field_eq_ok hjson judges_fenced (htakes .fenced)
  refine ⟨⟨suffix, directory, fenced⟩, fun f => ?_⟩
  cases f with
  | suffix => exact hsuffix
  | directory => exact hdirectory
  | fenced => exact hfenced

theorem checkEntries_eq_ok_iff {entries : List (Value × Value)} :
    checkEntries entries = .ok s ↔
      (∀ f : Field, f.Passes entries s) ∧ keyFaults (usedKeys entries).contains entries = [] := by
  constructor
  · intro h
    simp only [checkEntries] at h
    split at h
    case h_1 hsuffix hdirectory hfenced hstray =>
      obtain rfl := Except.ok.inj h
      refine ⟨fun f => ?_, hstray⟩
      cases f with
      | suffix => exact hsuffix
      | directory => exact hdirectory
      | fenced => exact hfenced
    case h_2 => cases h
  · rintro ⟨hpass, hstray⟩
    have hsuffix := hpass .suffix
    have hdirectory := hpass .directory
    have hfenced := hpass .fenced
    unfold Field.Passes at hsuffix hdirectory hfenced
    unfold checkEntries
    rw [hsuffix, hdirectory, hfenced, hstray]

theorem checkEntries_eq_error {entries : List (Value × Value)} {fs : List Fault}
    (h : checkEntries entries = .error fs) :
    fs = Field.all.flatMap (Field.faults entries) ++
      keyFaults (usedKeys entries).contains entries := by
  simp only [checkEntries] at h
  split at h
  case h_1 => cases h
  case h_2 =>
    obtain rfl := Except.error.inj h
    simp [Field.all, Field.faults]

/-- The faults of some fields, one for each that offends. -/
theorem flatMap_faults (hjson : (object members).IsJson) (fields : List Field) :
    ∃ bad, bad.Sublist fields ∧ (∀ f, f ∈ bad ↔ f ∈ fields ∧ Offends members f) ∧
      List.Forall₂ (Blames members) bad (fields.flatMap (Field.faults (entriesOf members))) := by
  induction fields with
  | nil => exact ⟨[], .slnil, by simp, .nil⟩
  | cons f fields ih =>
    obtain ⟨bad, hsub, hbad, hmarks⟩ := ih
    rw [List.flatMap_cons]
    rcases f.faults_cases hjson with ⟨hnil, hfine⟩ | ⟨fault, hblames, hone⟩
    · rw [hnil]
      refine ⟨bad, hsub.cons f, fun g => ?_, hmarks⟩
      rw [hbad, List.mem_cons]
      constructor
      · exact fun h => ⟨.inr h.1, h.2⟩
      · rintro ⟨rfl | hg, hoffends⟩
        · exact (hfine hoffends).elim
        · exact ⟨hg, hoffends⟩
    · rw [hone]
      refine ⟨f :: bad, hsub.cons_cons f, fun g => ?_, .cons hblames hmarks⟩
      have hoffends : Offends members f := by
        obtain ⟨k, v, h, hnot, -⟩ := hblames
        exact ⟨k, v, h, hnot⟩
      rw [List.mem_cons, hbad, List.mem_cons]
      constructor
      · rintro (rfl | ⟨hg, h⟩)
        · exact ⟨.inl rfl, hoffends⟩
        · exact ⟨.inr hg, h⟩
      · rintro ⟨rfl | hg, h⟩
        · exact .inl rfl
        · exact .inr ⟨hg, h⟩

/-! ## Keys that give no field -/

theorem Field.mem_all (f : Field) : f ∈ all := by cases f <;> decide

theorem Field.nodup_all : all.Nodup := by decide

theorem Field.nodup_spellings (f : Field) : f.spellings.Nodup := by cases f <;> decide

/-- No spelling belongs to two fields. -/
theorem Field.eq_of_mem_spellings {f g : Field} {k : RawText} (hf : k ∈ f.spellings)
    (hg : k ∈ g.spellings) : f = g := by
  have hall : (f.spellings.all fun k => g.spellings.contains k → f = g) = true := by
    cases f <;> cases g <;> decide
  simpa [hg] using List.all_eq_true.1 hall k hf

theorem mem_usedKeys {k : RawText} :
    k ∈ usedKeys (entriesOf members) ↔ ∃ f v, Uses members (Field.spellings f) k v := by
  have hfields : usedKeys (entriesOf members) =
      (Field.all.map Field.spellings).filterMap (spelling? (entriesOf members)) := rfl
  rw [hfields, List.mem_filterMap]
  constructor
  · rintro ⟨spellings, hmem, hk⟩
    obtain ⟨f, -, rfl⟩ := List.mem_map.1 hmem
    obtain ⟨v, h⟩ := exists_uses_of_spelling? hk
    exact ⟨f, v, h⟩
  · rintro ⟨f, v, h⟩
    exact ⟨f.spellings, List.mem_map.2 ⟨f, f.mem_all, rfl⟩, h.spelling?_eq⟩

/-- The extra keys in the order of the members. -/
theorem exists_extra (members : List (RawText × Value)) :
    ∃ extra : List RawText, extra.Sublist (members.map Prod.fst) ∧
      (∀ k, k ∈ extra ↔ IsExtra members k) ∧
      keyFaults (usedKeys (entriesOf members)).contains (entriesOf members) =
        extra.map fun k => ⟨[.key k], .extra⟩ := by
  refine ⟨_, List.filter_sublist, fun k => ?_, keyFaults_entriesOf _⟩
  rw [List.mem_filter, Bool.not_eq_true', ← Bool.not_eq_true, List.contains_iff_mem, mem_usedKeys]
  exact and_congr_right fun _ => by push Not; rfl

theorem keyFaults_eq_nil_iff :
    keyFaults (usedKeys (entriesOf members)).contains (entriesOf members) = [] ↔
      ∀ k, ¬IsExtra members k := by
  obtain ⟨extra, -, hextra, heq⟩ := exists_extra members
  rw [heq, List.map_eq_nil_iff, List.eq_nil_iff_forall_not_mem]
  exact forall_congr' fun k => not_congr (hextra k)

/-- Every key gives a field if it is one of the spellings, and no other spelling of its field is
there. -/
theorem forall_not_isExtra_iff : (∀ k, ¬IsExtra members k) ↔
    (∀ m ∈ members, ∃ f : Field, m.1 ∈ f.spellings) ∧
      ∀ f : Field, ∀ k ∈ f.spellings, ∀ k' ∈ f.spellings,
        k ∈ members.map Prod.fst → k' ∈ members.map Prod.fst → k = k' := by
  constructor
  · intro hnone
    have huses : ∀ k ∈ members.map Prod.fst, ∃ f v, Uses members (Field.spellings f) k v := by
      intro k hkey
      by_contra hnot
      exact hnone k ⟨hkey, fun f v h => hnot ⟨f, v, h⟩⟩
    refine ⟨fun m hm => ?_, fun f k hk k' hk' hkey hkey' => ?_⟩
    · obtain ⟨f, v, h⟩ := huses m.1 (List.mem_map.2 ⟨m, hm, rfl⟩)
      exact ⟨f, h.spelling⟩
    · obtain ⟨g, v, h⟩ := huses k hkey
      obtain ⟨g', v', h'⟩ := huses k' hkey'
      obtain rfl := Field.eq_of_mem_spellings hk h.spelling
      obtain rfl := Field.eq_of_mem_spellings hk' h'.spelling
      exact Option.some.inj (h.spelling?_eq.symm.trans h'.spelling?_eq)
  · rintro ⟨hknown, honce⟩ k ⟨hkey, hnot⟩
    obtain ⟨⟨k, v⟩, hmem, rfl⟩ := List.mem_map.1 hkey
    obtain ⟨f, hk⟩ := hknown _ hmem
    exact hnot f v (uses_of_once f.nodup_spellings hk hmem fun k' hk' hkey' =>
      honce f k' hk' k hk hkey' hkey)

/-! ## Settings from an object -/

theorem Field.not_hasSurrogate (f : Field) {k : RawText} (h : k ∈ f.spellings) :
    Text.hasSurrogate k = false := by
  have hall : (f.spellings.all fun k => !Text.hasSurrogate k) = true := by cases f <;> decide
  simpa using List.all_eq_true.1 hall k h

theorem brokenKey_iff :
    BrokenKey members ↔ ((members.map Prod.fst).any Text.hasSurrogate) = true := by
  rw [List.any_eq_true]
  rfl

theorem ofValue_of_brokenKey (h : BrokenKey members) :
    ofValue (object members) = .error [⟨[], .textNotUnicode⟩] := by
  show withKeys (entriesOf members) _ = _
  rw [withKeys_entriesOf, if_pos (brokenKey_iff.1 h)]

theorem ofValue_object (h : ¬BrokenKey members) :
    ofValue (object members) = checkEntries (entriesOf members) := by
  show withKeys (entriesOf members) _ = _
  rw [withKeys_entriesOf, if_neg fun hany => h (brokenKey_iff.2 hany)]

theorem InSchema.not_brokenKey (h : InSchema members) : ¬BrokenKey members := by
  rintro ⟨k, hkey, hbroken⟩
  obtain ⟨m, hm, rfl⟩ := List.mem_map.1 hkey
  obtain ⟨f, hf⟩ := h.known m hm
  rw [f.not_hasSurrogate hf] at hbroken
  cases hbroken

theorem Uses.gives {f : Field} {k : RawText} {v : Value} (h : Uses members f.spellings k v) :
    Gives members f v := ⟨k, h.spelling, h.member⟩

theorem forall_not_gives_iff {f : Field} :
    (∀ v, ¬Gives members f v) ↔ ∀ k ∈ f.spellings, k ∉ members.map Prod.fst := by
  constructor
  · intro hnot k hk hkey
    obtain ⟨⟨k, v⟩, hmem, rfl⟩ := List.mem_map.1 hkey
    exact hnot v ⟨k, hk, hmem⟩
  · rintro hnone v ⟨k, hk, hmem⟩
    exact hnone k hk (List.mem_map.2 ⟨_, hmem, rfl⟩)

theorem Gives.exists_uses {f : Field} {v : Value} (h : Gives members f v)
    (hextra : ∀ k, ¬IsExtra members k) : ∃ k, Uses members f.spellings k v := by
  obtain ⟨k, hk, hmem⟩ := h
  exact ⟨k, uses_of_once f.nodup_spellings hk hmem fun k' hk' hkey' =>
    (forall_not_isExtra_iff.1 hextra).2 f k' hk' k hk hkey' (List.mem_map.2 ⟨_, hmem, rfl⟩)⟩

theorem ofValue_eq_ok_iff (hjson : (object members).IsJson) :
    ofValue (object members) = .ok s ↔ InSchema members ∧ Settles members s := by
  constructor
  · intro h
    have hwhole : ¬BrokenKey members := by
      intro hbroken
      rw [ofValue_of_brokenKey hbroken] at h
      cases h
    rw [ofValue_object hwhole, checkEntries_eq_ok_iff, keyFaults_eq_nil_iff] at h
    obtain ⟨hpass, hextra⟩ := h
    obtain ⟨hknown, honce⟩ := forall_not_isExtra_iff.1 hextra
    refine ⟨⟨hknown, honce, fun f v hv => ?_⟩, fun f => ⟨fun v hv => ?_, fun hnone => ?_⟩⟩
    · obtain ⟨k, h⟩ := hv.exists_uses hextra
      exact (((f.passes_iff hjson).1 (hpass f)).1 k v h).1
    · obtain ⟨k, h⟩ := hv.exists_uses hextra
      exact (((f.passes_iff hjson).1 (hpass f)).1 k v h).2
    · exact ((f.passes_iff hjson).1 (hpass f)).2 (forall_not_gives_iff.1 hnone)
  · rintro ⟨hschema, hsettles⟩
    rw [ofValue_object hschema.not_brokenKey, checkEntries_eq_ok_iff, keyFaults_eq_nil_iff]
    refine ⟨fun f => (f.passes_iff hjson).2 ⟨fun k v h => ?_, fun hnone => ?_⟩,
      forall_not_isExtra_iff.2 ⟨hschema.known, hschema.once⟩⟩
    · exact ⟨hschema.fits f v h.gives, (hsettles f).1 v h.gives⟩
    · exact (hsettles f).2 (forall_not_gives_iff.2 hnone)

theorem exists_ofValue_eq_ok (hjson : (object members).IsJson) (hschema : InSchema members) :
    ∃ s, ofValue (object members) = .ok s := by
  obtain ⟨s, hpass⟩ := exists_passes hjson fun f _ v h => hschema.fits f v h.gives
  refine ⟨s, ?_⟩
  rw [ofValue_object hschema.not_brokenKey, checkEntries_eq_ok_iff, keyFaults_eq_nil_iff]
  exact ⟨hpass, forall_not_isExtra_iff.2 ⟨hschema.known, hschema.once⟩⟩

theorem exists_reports (hjson : (object members).IsJson) (hwhole : ¬BrokenKey members)
    {fs : List Fault} (h : ofValue (object members) = .error fs) :
    ∃ bad extra, Reports members bad extra fs := by
  rw [ofValue_object hwhole] at h
  obtain ⟨bad, hsub, hbad, hmarks⟩ := flatMap_faults hjson Field.all
  obtain ⟨extra, hkeys, hextra, hstray⟩ := exists_extra members
  refine ⟨bad, extra, hsub, fun f => ?_, hkeys, hextra, _, hmarks, ?_⟩
  · rw [hbad]
    exact and_iff_right f.mem_all
  · rw [checkEntries_eq_error h, hstray]

/-! ## Settings written back -/

/-- The value that a field of the settings is written with. -/
def Field.value (s : Settings) : Field → Value
  | suffix => .str s.suffix
  | directory => s.directory?.elim .null .str
  | fenced => .bool s.fenced

theorem Field.isJson_value (f : Field) (s : Settings) : (f.value s).IsJson := by
  cases f with
  | suffix => exact .str _
  | directory =>
    show IsJson (s.directory?.elim .null .str)
    cases s.directory? with
    | none => exact .null
    | some d => exact .str d
  | fenced => exact .bool _

/-- The settings as members of an object, each field under a spelling of choice. -/
def dump (spell : Field → RawText) (s : Settings) : List (RawText × Value) :=
  Field.all.map fun f => (spell f, f.value s)

/-- The members hold the settings, each field under its spelling. A field that is null may be
left out. -/
structure Dumps (spell : Field → RawText) (s : Settings) (members : List (RawText × Value)) :
    Prop where
  nodup : (members.map Prod.fst).Nodup
  of_mem : ∀ k v, (k, v) ∈ members → ∃ f : Field, spell f = k ∧ f.value s = v
  mem : ∀ f : Field, f.value s ≠ .null → (spell f, f.value s) ∈ members

theorem Field.takes_value (hsuffix : isSuffix s.suffix = true) (f : Field) :
    f.Takes (f.value s) := by
  cases f with
  | suffix => exact takes_suffix_iff.2 ⟨_, rfl, hsuffix⟩
  | directory => exact takes_directory_elim s.directory?
  | fenced => exact ⟨s.fenced, .bool s.fenced⟩

theorem Field.reads_value (f : Field) (s : Settings) : f.Reads (f.value s) s := by
  cases f with
  | suffix => rfl
  | directory => rfl
  | fenced => exact MeansBool.bool s.fenced

theorem Field.isDefault_of_null (f : Field) (h : f.value s = .null) : f.IsDefault s := by
  cases f with
  | suffix => cases h
  | directory =>
    show s.directory? = none
    cases hd : s.directory? with
    | none => rfl
    | some d => simp [Field.value, hd] at h
  | fenced => cases h

section
variable {spell : Field → RawText}

theorem Dumps.isJson (h : Dumps spell s members) : (object members).IsJson := by
  refine isJson_object_iff.2 ⟨h.nodup, ?_⟩
  rintro ⟨k, v⟩ hmem
  obtain ⟨f, -, rfl⟩ := h.of_mem k v hmem
  exact f.isJson_value s

theorem Dumps.eq_value (h : Dumps spell s members) (hspell : ∀ f, spell f ∈ f.spellings)
    {f : Field} {v : Value} (hv : Gives members f v) : v = f.value s := by
  obtain ⟨k, hk, hmem⟩ := hv
  obtain ⟨g, rfl, rfl⟩ := h.of_mem k v hmem
  rw [Field.eq_of_mem_spellings hk (hspell g)]

theorem Dumps.eq_spell (h : Dumps spell s members) (hspell : ∀ f, spell f ∈ f.spellings)
    {f : Field} {k : RawText} (hk : k ∈ f.spellings) (hkey : k ∈ members.map Prod.fst) :
    k = spell f := by
  obtain ⟨⟨k, v⟩, hmem, rfl⟩ := List.mem_map.1 hkey
  obtain ⟨g, rfl, -⟩ := h.of_mem k v hmem
  rw [Field.eq_of_mem_spellings hk (hspell g)]

/-- Settings are read back from the members that hold them. -/
theorem Dumps.ofValue_eq (h : Dumps spell s members) (hspell : ∀ f, spell f ∈ f.spellings)
    (hsuffix : isSuffix s.suffix = true) : ofValue (object members) = .ok s := by
  rw [ofValue_eq_ok_iff h.isJson]
  refine ⟨⟨?_, ?_, ?_⟩, fun f => ⟨?_, fun hnone => ?_⟩⟩
  · rintro ⟨k, v⟩ hmem
    obtain ⟨f, rfl, -⟩ := h.of_mem k v hmem
    exact ⟨f, hspell f⟩
  · intro f k hk k' hk' hmem hmem'
    rw [h.eq_spell hspell hk hmem, h.eq_spell hspell hk' hmem']
  · intro f v hv
    rw [h.eq_value hspell hv]
    exact f.takes_value hsuffix
  · intro v hv
    rw [h.eq_value hspell hv]
    exact f.reads_value s
  · -- a field that no member gives is one that is null
    by_contra hdefault
    exact hnone _ ⟨spell f, hspell f, h.mem f fun hnull => hdefault (f.isDefault_of_null hnull)⟩

theorem mem_dump {k : RawText} {v : Value} :
    (k, v) ∈ dump spell s ↔ ∃ f : Field, spell f = k ∧ f.value s = v := by
  simp [dump, Field.mem_all]

theorem dumps_dump (hspell : ∀ f, spell f ∈ f.spellings) (s : Settings) :
    Dumps spell s (dump spell s) where
  nodup := by
    have hkeys : (dump spell s).map Prod.fst = Field.all.map spell := by simp [dump]
    rw [hkeys]
    refine List.Pairwise.map spell (fun f g hne hsame => hne ?_) Field.nodup_all
    exact Field.eq_of_mem_spellings (hspell f) (hsame ▸ hspell g)
  of_mem _ _ := mem_dump.1
  mem f _ := mem_dump.2 ⟨f, rfl, rfl⟩

theorem ofValue_dump (hspell : ∀ f, spell f ∈ f.spellings) (hsuffix : isSuffix s.suffix = true) :
    ofValue (object (dump spell s)) = .ok s :=
  (dumps_dump hspell s).ofValue_eq hspell hsuffix

end

end

theorem Settles.congr {members other : List (RawText × Value)} {s : Settings}
    (h : Settles members s) (hgives : ∀ f v, Gives other f v ↔ Gives members f v) :
    Settles other s := by
  intro f
  simp only [hgives]
  exact h f

/-- An object gives settings if and only if it fits the schema. The settings hold what the
members give, so every other object of the schema that gives the same values gives the same
settings, and so do the settings written back under any spellings. An object beyond the schema
has one fault for each offending field and then one for each extra key, unless a key has a
surrogate: then it has a single fault, of its own. -/
theorem settings_fit_schema {members : List (RawText × Value)} (hjson : (object members).IsJson) :
    ((∃ s, ofValue (object members) = .ok s) ↔ InSchema members) ∧
      (∀ s, ofValue (object members) = .ok s →
        Settles members s ∧
        (∀ other, (object other).IsJson → InSchema other →
          (∀ f v, Gives other f v ↔ Gives members f v) → ofValue (object other) = .ok s) ∧
        ∀ spell : Field → RawText, (∀ f, spell f ∈ f.spellings) →
          ofValue (object (dump spell s)) = .ok s) ∧
      (BrokenKey members → ofValue (object members) = .error [⟨[], .textNotUnicode⟩]) ∧
      (¬BrokenKey members → ∀ fs, ofValue (object members) = .error fs →
        ∃ bad extra, Reports members bad extra fs) := by
  refine ⟨⟨fun ⟨s, hs⟩ => ?_, exists_ofValue_eq_ok hjson⟩, fun s hs => ?_,
    ofValue_of_brokenKey, fun hwhole fs => exists_reports hjson hwhole⟩
  · exact ((ofValue_eq_ok_iff hjson).1 hs).1
  · have hsettles := ((ofValue_eq_ok_iff hjson).1 hs).2
    refine ⟨hsettles, fun other hother hschema hgives => ?_, fun spell hspell => ?_⟩
    · exact (ofValue_eq_ok_iff hother).2 ⟨hschema, hsettles.congr hgives⟩
    · exact ofValue_dump hspell (isSuffix_of_ofValue hs)

/-- Two spellings of the suffix, of which the second is extra, and an unclear truth value. -/
def clashing : List (RawText × Value) :=
  [("output_suffix", .str ".md"), ("fenced", .int 2), ("note", .null), ("output-suffix", .str ".")]

/-- A truth value as a word, and a directory spelled with an underscore. -/
def spelledOut : List (RawText × Value) :=
  [("fenced", .str "Off"), ("output_directory", .str "out")]

theorem settings_fit_schema_two_spellings :
    (∃ bad extra, Reports clashing bad extra
      [⟨[.key "output-suffix"], .badSuffix "'.'"⟩, ⟨[.key "fenced"], .unclearBool⟩,
        ⟨[.key "output_suffix"], .extra⟩, ⟨[.key "note"], .extra⟩]) ∧
      InSchema spelledOut ∧ Settles spelledOut ⟨".md", some "out", false⟩ ∧
      ofValue (object (dump (fun f => f.spellings.head!) ⟨".md", some "out", false⟩)) =
        .ok ⟨".md", some "out", false⟩ := by
  have hclashing : (object clashing).IsJson :=
    isJson_object_iff.2 ⟨by decide, by simp [clashing, IsJson.str, IsJson.int, IsJson.null]⟩
  have hspelled : (object spelledOut).IsJson :=
    isJson_object_iff.2 ⟨by decide, by simp [spelledOut, IsJson.str]⟩
  have hread : ofValue (object spelledOut) = .ok ⟨".md", some "out", false⟩ := by decide
  obtain ⟨hfits, hok, -⟩ := settings_fit_schema hspelled
  obtain ⟨hsettles, -, hdump⟩ := hok _ hread
  refine ⟨?_, hfits.1 ⟨_, hread⟩, hsettles, hdump _ fun f => by cases f <;> decide⟩
  refine (settings_fit_schema hclashing).2.2.2 ?_ _ (by decide +kernel)
  rw [brokenKey_iff]
  decide

/-- A key that is a surrogate, and an unclear truth value. -/
def surrogateKey : List (RawText × Value) := [([.surrogate 0], .int 0), ("fenced", .int 2)]

theorem offends_surrogateKey : Offends surrogateKey .fenced := by
  refine ⟨"fenced", .int 2, ⟨by simp [surrogateKey], [], [], rfl, nofun⟩, ?_⟩
  rintro ⟨b, hb⟩
  cases hb

theorem isExtra_surrogateKey : IsExtra surrogateKey [.surrogate 0] := by
  refine ⟨by simp [surrogateKey], fun f v h => ?_⟩
  have hwhole := f.not_hasSurrogate h.spelling
  cases hwhole

/-- One fault stands for two: that of the field and that of the key are not reported. -/
theorem surrogate_key_hides_other_faults :
    (object surrogateKey).IsJson ∧ Offends surrogateKey .fenced ∧
      IsExtra surrogateKey [.surrogate 0] ∧
      ofValue (object surrogateKey) = .error [⟨[], .textNotUnicode⟩] ∧
      ∀ bad extra, ¬Reports surrogateKey bad extra [⟨[], .textNotUnicode⟩] := by
  refine ⟨isJson_object_iff.2 ⟨by decide, by simp [surrogateKey, IsJson.int]⟩,
    offends_surrogateKey, isExtra_surrogateKey, by decide, fun bad extra h => ?_⟩
  have hbad := List.length_pos_of_mem ((h.fields_offend _).2 offends_surrogateKey)
  have hextra := List.length_pos_of_mem ((h.keys_extra _).2 isExtra_surrogateKey)
  obtain ⟨marks, hmarks, heq⟩ := h.faults_eq
  have hlength := congrArg List.length heq
  rw [List.length_append, List.length_map, ← hmarks.length_eq, List.length_singleton] at hlength
  omega

end Flowchart.Settings

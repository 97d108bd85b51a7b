import Flowchart.Command.Run
import Flowchart.Proofs.Walks

/-!
# Effects on files

What the operations on a file tree do to its entries. Making directories lets a
tree grow: everything in it stays, and only directories are new. Writing a file
changes one location, where a file or nothing was. A build that fails has at
most made directories, so it leaves all files as they were.
-/

namespace Flowchart

namespace FileTree

/-! ## Entries -/

theorem lookup_replace (entries : List (Location × Entry)) (l l' : Location) (e : Entry) :
    (entries.map fun x => if x.1 = l then (l, e) else x).lookup l' =
      if l' = l then (entries.lookup l').map fun _ => e else entries.lookup l' := by
  induction entries with
  | nil => simp
  | cons x entries ih =>
    obtain ⟨k, old⟩ := x
    rw [List.map_cons, lookup_cons_ite k old]
    by_cases hk : k = l
    · subst hk
      rw [if_pos rfl, lookup_cons_ite, ih]
      by_cases hl : l' = k <;> simp [hl]
    · rw [if_neg hk, lookup_cons_ite, ih]
      by_cases hl : l' = k
      · subst hl; simp [hk]
      · simp only [if_neg hl]

/-- After an entry is put at a location, it stands there, and elsewhere nothing has changed. -/
theorem find?_insert (t : FileTree) {l : Location} (hl : l ≠ []) (e : Entry) (l' : Location) :
    (t.insert l e).find? l' = if l' = l then some e else t.find? l' := by
  unfold insert find?
  by_cases hnil : l' = []
  · subst hnil
    simp [hl.symm]
  · simp only [List.isEmpty_iff, hnil, ↓reduceIte]
    split
    · rename_i hsome
      rw [lookup_replace]
      split
      · rename_i heq
        subst heq
        obtain ⟨old, hold⟩ := Option.isSome_iff_exists.1 hsome
        simp [hold]
      · rfl
    · rename_i hnone
      have hnone : t.entries.lookup l = none := Option.not_isSome_iff_eq_none.1 hnone
      rw [List.lookup_append, lookup_cons_ite]
      by_cases heq : l' = l
      · subst heq
        rw [hnone]
        simp
      · simp [heq]

theorem find?_insert_of_ne {t : FileTree} {l l' : Location} (hl : l ≠ []) (hne : l' ≠ l)
    (e : Entry) : (t.insert l e).find? l' = t.find? l' := by
  rw [find?_insert t hl, if_neg hne]

/-- A file that is written takes the place of no directory and no link. -/
theorem find?_insert_file {t : FileTree} {l : Location} (bytes : List UInt8) (hl : l ≠ [])
    (hold : t.find? l = none ∨ ∃ old, t.find? l = some (.file old)) (l' : Location) (x : Entry)
    (hx : ∀ old, x ≠ .file old) (h : t.find? l' = some x) :
    (t.insert l (.file bytes)).find? l' = some x := by
  rw [find?_insert_of_ne hl, h]
  rintro rfl
  rcases hold with hold | ⟨old, hold⟩
  · rw [h] at hold; cases hold
  · rw [h] at hold; cases hold; exact hx old rfl

@[simp] theorem insert_cwd (t : FileTree) (l : Location) (e : Entry) :
    (t.insert l e).cwd = t.cwd := by
  unfold insert
  split <;> rfl

theorem find?_nil (t : FileTree) : t.find? [] = some .directory := rfl

/-! ## Growth -/

/-- All entries are kept, and the new ones are directories. -/
structure Grows (t t' : FileTree) : Prop where
  cwd : t'.cwd = t.cwd
  kept : ∀ l e, t.find? l = some e → t'.find? l = some e
  new : ∀ l e, t'.find? l = some e → t.find? l = some e ∨ t.find? l = none ∧ e = .directory

theorem Grows.refl (t : FileTree) : Grows t t := ⟨rfl, fun _ _ h => h, fun _ _ h => .inl h⟩

theorem Grows.trans {a b c : FileTree} (h : Grows a b) (h' : Grows b c) : Grows a c where
  cwd := h'.cwd.trans h.cwd
  kept l e he := h'.kept l e (h.kept l e he)
  new l e he := by
    rcases h'.new l e he with hb | ⟨hb, rfl⟩
    · exact h.new l e hb
    · refine .inr ⟨?_, rfl⟩
      cases ha : a.find? l with
      | none => rfl
      | some x => rw [h.kept l x ha] at hb; cases hb

theorem grows_insert_directory {t : FileTree} {l : Location} (h : t.find? l = none) :
    Grows t (t.insert l .directory) := by
  have hl : l ≠ [] := by
    rintro rfl
    cases h
  refine ⟨t.insert_cwd l _, fun l' e he => ?_, fun l' e he => ?_⟩
  · rw [find?_insert t hl, if_neg, he]
    rintro rfl
    rw [h] at he; cases he
  · rw [find?_insert t hl] at he
    split at he
    · rename_i heq
      cases he
      exact .inr ⟨heq ▸ h, rfl⟩
    · exact .inl he

/-- Growth does not touch links. -/
theorem Grows.link_iff {t t' : FileTree} (h : Grows t t') (l : Location) (target : String) :
    t'.find? l = some (.link target) ↔ t.find? l = some (.link target) := by
  refine ⟨fun hl => ?_, h.kept l _⟩
  rcases h.new l _ hl with hl | ⟨-, hl⟩
  · exact hl
  · cases hl

/-- The regular files of two trees are the same. -/
def SameFiles (t t' : FileTree) : Prop :=
  ∀ l bytes, t'.find? l = some (.file bytes) ↔ t.find? l = some (.file bytes)

theorem Grows.sameFiles {t t' : FileTree} (h : Grows t t') : SameFiles t t' := by
  intro l bytes
  refine ⟨fun hl => ?_, h.kept l _⟩
  rcases h.new l _ hl with hl | ⟨-, hl⟩
  · exact hl
  · cases hl

/-! ## Operations -/

section
variable {t t' : FileTree} {p : Path} {purpose : Purpose} {f : Found}

/-- A path that the system can be asked about. -/
structure Askable (p : Path) : Prop where
  encodable : Text.hasSurrogate p.raw = false
  no_null : p.text.toList.contains '\x00' = false
  short : p.text.utf8ByteSize < maxPath

theorem locate_of_askable (purpose : Purpose) (h : Askable p) : t.locate purpose p =
    (t.walk purpose maxLinks (t.base p) p.parts).mapError (.os · p.text) := by
  rw [locate, h.encodable, h.no_null, if_neg Bool.false_ne_true, if_neg Bool.false_ne_true,
    if_neg (Nat.not_le.2 h.short)]

theorem askable_of_locate (h : t.locate purpose p = .ok f) : Askable p := by
  unfold locate at h
  split at h
  · cases h
  rename_i hencodable
  split at h
  · cases h
  rename_i hnull
  split at h
  · cases h
  rename_i hlong
  exact ⟨by simpa using hencodable, by simpa using hnull, Nat.lt_of_not_le hlong⟩

theorem locate_eq_ok_iff : t.locate purpose p = .ok f ↔
    Askable p ∧ Walk t purpose maxLinks (t.base p) p.parts f := by
  rw [← walk_eq_ok_iff]
  constructor
  · intro h
    have hask := askable_of_locate h
    refine ⟨hask, ?_⟩
    rw [locate_of_askable purpose hask] at h
    cases hw : t.walk purpose maxLinks (t.base p) p.parts with
    | error e => rw [hw] at h; cases h
    | ok g => rw [hw] at h; cases h; rfl
  · rintro ⟨hask, hw⟩
    rw [locate_of_askable purpose hask, hw]
    rfl

theorem readFile_eq_ok_iff {bytes : List UInt8} : t.readFile p = .ok bytes ↔
    ∃ l, t.locate .target p = .ok (.entry l (.file bytes)) := by
  unfold readFile
  cases t.locate .target p with
  | error e => simp [bind, Except.bind]
  | ok f =>
    cases f with
    | absent l => simp [bind, Except.bind]
    | entry l e => cases e <;> simp [bind, Except.bind, pure, Except.pure]

/-- A file is read where a path leads if another tree has it there, and keeps directories and
links. -/
theorem readFile_of_kept {bytes : List UInt8} (h : t.locate purpose p = .ok f)
    (hp : purpose ≠ .itself) (hf : f.entry? = none ∨ ∃ old, f.entry? = some (.file old))
    (hcwd : t'.cwd = t.cwd) (hend : t'.find? f.location = some (.file bytes))
    (hkept : ∀ l x, (∀ old, x ≠ .file old) → t.find? l = some x → t'.find? l = some x) :
    t'.readFile p = .ok bytes := by
  obtain ⟨hask, hwalk⟩ := locate_eq_ok_iff.1 h
  have hbase : t'.base p = t.base p := by simp only [base, hcwd]
  rw [readFile_eq_ok_iff]
  refine ⟨f.location, locate_eq_ok_iff.2 ⟨hask, ?_⟩⟩
  rw [hbase]
  exact hwalk.of_kept hp hf hend hkept

theorem makeDirectory_grows (h : t.makeDirectory p = .ok t') : Grows t t' := by
  unfold makeDirectory at h
  cases hl : t.locate .itself p with
  | error e => rw [hl] at h; cases h
  | ok f =>
    rw [hl] at h
    cases f with
    | entry l e => cases h
    | absent l =>
      cases h
      exact grows_insert_directory (locate_eq_ok_iff.1 hl).2.find?

theorem ensureDirectory_grows (h : t.ensureDirectory p = .ok t') : Grows t t' := by
  unfold ensureDirectory at h
  split at h
  · rename_i hm
    cases h
    exact makeDirectory_grows hm
  · cases h
  · -- the directory may be there already
    cases hd : t.isDirectory p with
    | error e => rw [hd] at h; cases h
    | ok b =>
      rw [hd] at h
      cases b with
      | true => cases h; exact .refl t
      | false => cases h
  · cases h

/-- Making directories lets the tree grow, also when it fails half-way. -/
theorem ensureDirectories_grows (t : FileTree) (p : Path) : Grows t (t.ensureDirectories p).2 := by
  fun_induction ensureDirectories t p with
  | case1 p t' h => exact ensureDirectory_grows h
  | case2 p _ h hp => exact .refl t
  | case3 p _ h hp f t' hr ih => rw [hr] at ih; exact ih
  | case4 p _ h hp t' hr t'' h' ih => rw [hr] at ih; exact ih.trans (ensureDirectory_grows h')
  | case5 p _ h hp t' hr f h' ih => rw [hr] at ih; exact ih
  | case6 p f h hf => exact .refl t

/-- A file is written where the path leads, in place of a file or of nothing. -/
theorem writeFile_ok {bytes : List UInt8} (h : t.writeFile p bytes = .ok t') :
    ∃ f, t.locate .creation p = .ok f ∧ f.location ≠ [] ∧
      (f.entry? = none ∨ ∃ old, f.entry? = some (.file old)) ∧
      t' = t.insert f.location (.file bytes) := by
  unfold writeFile at h
  cases hl : t.locate .creation p with
  | error e => rw [hl] at h; cases h
  | ok f =>
    rw [hl] at h
    have hfind := (locate_eq_ok_iff.1 hl).2.find?
    have hne (hdir : f.entry? ≠ some .directory) : f.location ≠ [] := by
      intro hnil
      rw [hnil, find?_nil] at hfind
      exact hdir hfind.symm
    cases f with
    | absent l => cases h; exact ⟨_, rfl, hne (by simp [Found.entry?]), .inl rfl, rfl⟩
    | entry l e =>
      cases e with
      | file old => cases h; exact ⟨_, rfl, hne (by simp [Found.entry?]), .inr ⟨old, rfl⟩, rfl⟩
      | directory => cases h
      | link target => cases h

end

end FileTree

open FileTree

/-! ## Builds that fail -/

theorem grows_of_writeDocument_error {t t' : FileTree} {ls : List String} {p : Path}
    {fenced : Bool} {f : FileFault} (h : writeDocument t ls p fenced = (.error f, t')) :
    Grows t t' := by
  have hgrow := ensureDirectories_grows t p.parent
  unfold writeDocument at h
  split at h
  · rename_i hd
    cases h
    rwa [hd] at hgrow
  · rename_i hd
    rw [hd] at hgrow
    split at h
    · cases h; exact hgrow
    · cases h

theorem grows_of_transpileFile_error {t t' : FileTree} {source output : Path} {fenced : Bool}
    {f : BuildFault} (h : transpileFile t source output fenced = (.error f, t')) :
    Grows t t' := by
  unfold transpileFile at h
  split at h
  · cases h; exact .refl t
  · split at h
    · rename_i hw
      cases h
      exact grows_of_writeDocument_error hw
    · cases h

theorem grows_of_buildSource {t : FileTree} {source : Path} {output? config? : Option String}
    {noFence : Bool}
    (h : (Command.buildSource t source output? config? noFence).1.result ≠ .ok 0) :
    Grows t (Command.buildSource t source output? config? noFence).2 := by
  unfold Command.buildSource at h ⊢
  split
  · exact .refl t
  · split
    · exact .refl t
    · split
      · rename_i ht
        exact grows_of_transpileFile_error ht
      · -- only a build that has written its document returns 0
        rename_i hs _ _ ho _ _ _ ht
        simp [hs, ho, ht] at h

theorem grows_of_build {t : FileTree} {source : String} {output? : Option String}
    {config : Command.SettingsChoice} {noFence : Bool}
    (h : (Command.build t source output? config noFence).1.result ≠ .ok 0) :
    Grows t (Command.build t source output? config noFence).2 := by
  cases hp : t.resolve (.ofText source) with
  | error f => simp only [Command.build, hp]; exact .refl t
  | ok p =>
    cases hf : t.isFile p with
    | error f => simp only [Command.build, hp, hf]; exact .refl t
    | ok b =>
      cases b with
      | false => simp only [Command.build, hp, hf]; exact .refl t
      | true =>
        cases config with
        | nothing => simp only [Command.build, hp, hf]; exact .refl t
        | beside =>
          simp only [Command.build, hp, hf] at h ⊢
          exact grows_of_buildSource h
        | file path =>
          simp only [Command.build, hp, hf] at h ⊢
          exact grows_of_buildSource h

/-- A build that fails leaves every file as it was and makes no new one, whatever links lead to
the files. -/
theorem failed_build_keeps_files :
    (∀ (t : FileTree) (source output : Path) (fenced : Bool),
      (∀ ls, (transpileFile t source output fenced).1 ≠ .ok ls) →
      SameFiles t (transpileFile t source output fenced).2) ∧
    (∀ (t : FileTree) (source : String) (output? : Option String)
      (config : Command.SettingsChoice) (noFence : Bool),
      (Command.build t source output? config noFence).1.result ≠ .ok 0 →
      SameFiles t (Command.build t source output? config noFence).2) := by
  refine ⟨fun t source output fenced h => ?_, fun t source output? config noFence h => ?_⟩
  · cases ht : transpileFile t source output fenced with
    | mk r t' =>
      rw [ht] at h
      cases r with
      | ok ls => exact (h ls rfl).elim
      | error f => exact (grows_of_transpileFile_error ht).sameFiles
  · exact (grows_of_build h).sameFiles

/-- The output stands below the source, so it cannot be written; the directory `n` is left. -/
theorem failed_build_keeps_files_below_source :
    let t : FileTree := ⟨[(["s"], .file (Text.encodeUtf8 "Entity(a,\"A\")"))], []⟩
    (transpileFile t (.ofText "s") (.ofText "n/../s/o") true).1 =
        .error (.unwritable "n/../s/o" (.os .occupied "n/../s")) ∧
      SameFiles t (transpileFile t (.ofText "s") (.ofText "n/../s/o") true).2 ∧
      (Command.build t "s" (some "n/../s/o") .beside false).1.result = .ok 1 ∧
      SameFiles t (Command.build t "s" (some "n/../s/o") .beside false).2 := by
  intro t
  have hfile : (transpileFile t (.ofText "s") (.ofText "n/../s/o") true).1 =
      .error (.unwritable "n/../s/o" (.os .occupied "n/../s")) := by decide +kernel
  have hbuild : (Command.build t "s" (some "n/../s/o") .beside false).1.result = .ok 1 := by
    decide +kernel
  refine ⟨hfile, failed_build_keeps_files.1 _ _ _ _ fun ls => ?_, hbuild,
    failed_build_keeps_files.2 _ _ _ _ _ ?_⟩
  · rw [hfile]; exact nofun
  · rw [hbuild]; decide

end Flowchart

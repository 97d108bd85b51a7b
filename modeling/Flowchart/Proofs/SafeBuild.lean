import Flowchart.Proofs.FileEffects
import Flowchart.Proofs.Resolution

/-!
# Builds that succeed

A build that succeeds writes one file, the document, and reading the output
gives it back. The source is told from the output by where the two resolve to,
so it is safe as long as both are in sight: a link whose way is too long to be
looked up is not followed in resolving, but it is followed in writing.
-/

namespace Flowchart

namespace FileTree

/-- One file is written, and all others are as they were. -/
structure Writes (t t' : FileTree) (l : Location) (bytes : List UInt8) : Prop where
  written : t'.find? l = some (.file bytes)
  others : ∀ l' old, l' ≠ l →
    (t'.find? l' = some (.file old) ↔ t.find? l' = some (.file old))

theorem Grows.writes {t t₁ : FileTree} {l : Location} (bytes : List UInt8) (h : Grows t t₁)
    (hl : l ≠ []) : Writes t (t₁.insert l (.file bytes)) l bytes where
  written := by rw [find?_insert t₁ hl, if_pos rfl]
  others l' old hne := by
    rw [find?_insert_of_ne hl hne]
    exact h.sameFiles l' old

end FileTree

open FileTree

section
variable {t t' : FileTree} {source output : Path} {fenced : Bool} {ls : List String}

/-- The directories above a document are made first; then the document is written where its path
leads by now. -/
theorem writeDocument_ok (h : writeDocument t ls output fenced = (.ok (), t')) :
    ∃ t₁ f, Grows t t₁ ∧ t₁.locate .creation output = .ok f ∧ f.location ≠ [] ∧
      (f.entry? = none ∨ ∃ old, f.entry? = some (.file old)) ∧
      t' = t₁.insert f.location (.file (Text.encodeUtf8 (renderDocument fenced ls))) := by
  have hgrow := ensureDirectories_grows t output.parent
  unfold writeDocument at h
  split at h
  · cases h
  · rename_i t₁ hd
    rw [hd] at hgrow
    split at h
    · cases h
    · rename_i hw
      cases h
      obtain ⟨f, hl, hne, hf, rfl⟩ := writeFile_ok hw
      exact ⟨t₁, f, hgrow, hl, hne, hf, rfl⟩

theorem readSource_ok {lines : List SourceLine} (h : readSource t source = .ok lines) :
    ∃ bytes cs, t.readFile source = .ok bytes ∧ Text.decodeUtf8 bytes = .ok cs ∧
      lines = sourceLines (String.ofList (Text.unifyNewlines cs)) := by
  unfold readSource readText at h
  cases hr : t.readFile source with
  | error e => rw [hr] at h; cases h
  | ok bytes =>
    rw [hr] at h
    simp only [bind, Except.bind] at h
    cases hd : Text.decodeUtf8 bytes with
    | error e => rw [hd] at h; cases h
    | ok cs =>
      rw [hd] at h
      cases h
      exact ⟨bytes, cs, rfl, hd, rfl⟩

/-- A source compiles only if it resolves to another place than its document. -/
theorem compileFile_eq_ok_iff : compileFile t source output = .ok ls ↔
    ∃ target origin lines, t.resolve output = .ok target ∧ t.resolve source = .ok origin ∧
      target ≠ origin ∧ readSource t source = .ok lines ∧ transpile lines = .ok ls := by
  constructor
  · intro h
    unfold compileFile at h
    cases ho : t.resolve output with
    | error e => rw [ho] at h; cases h
    | ok target =>
      cases hs : t.resolve source with
      | error e => rw [ho, hs] at h; cases h
      | ok origin =>
        rw [ho, hs] at h
        simp only [bind, Except.bind, Except.mapError] at h
        split at h
        · cases h
        · rename_i hne
          cases hr : readSource t source with
          | error e => rw [hr] at h; cases h
          | ok lines =>
            rw [hr] at h
            cases ht : transpile lines with
            | error e => simp only [ht] at h; cases h
            | ok ls' =>
              simp only [ht] at h
              cases h
              exact ⟨target, origin, lines, rfl, rfl, hne, rfl, ht⟩
  · rintro ⟨target, origin, lines, ho, hs, hne, hr, ht⟩
    simp [compileFile, ho, hs, hne, hr, ht, bind, Except.bind, Except.mapError]

theorem transpileFile_ok (h : transpileFile t source output fenced = (.ok ls, t')) :
    compileFile t source output = .ok ls ∧
      writeDocument t ls output fenced = (.ok (), t') := by
  unfold transpileFile at h
  split at h
  · cases h
  · rename_i hc
    split at h
    · cases h
    · rename_i hw
      cases h
      exact ⟨hc, hw⟩

/-- A build that succeeds writes its document, which the source's content compiles to, where the
output leads, and changes no other file. If the output is in sight, this is the place that it
resolves to; if the source is in sight too, it is another place than the source's, so the source
has kept its content. -/
theorem successful_build_writes_one_file
    (h : transpileFile t source output fenced = (.ok ls, t')) :
    ∃ l bytes cs, t.readFile source = .ok bytes ∧ Text.decodeUtf8 bytes = .ok cs ∧
      transpile (sourceLines (String.ofList (Text.unifyNewlines cs))) = .ok ls ∧
      Writes t t' l (Text.encodeUtf8 (renderDocument fenced ls)) ∧
      t'.readFile output = .ok (Text.encodeUtf8 (renderDocument fenced ls)) ∧
      (t.inSight output = true → t.resolve output = .ok (pathAt l)) ∧
      (t.inSight source = true → t.inSight output = true → t'.readFile source = .ok bytes) := by
  obtain ⟨hc, hw⟩ := transpileFile_ok h
  obtain ⟨target, origin, lines, ho, hs, hne, hr, ht⟩ := compileFile_eq_ok_iff.1 hc
  obtain ⟨bytes, cs, hread, hdec, rfl⟩ := readSource_ok hr
  obtain ⟨t₁, f, hgrow, hl, hroot, hf, rfl⟩ := writeDocument_ok hw
  have hwalk := (locate_eq_ok_iff.1 hl).2
  have hwrites := hgrow.writes (Text.encodeUtf8 (renderDocument fenced ls)) hroot
  have hkept := find?_insert_file (Text.encodeUtf8 (renderDocument fenced ls)) hroot
    (by rwa [hwalk.find?])
  -- making directories touches no link, so the output leads where it resolved to before
  have htarget (hsee : t.inSight output = true) : target = pathAt f.location := by
    have hbase : t₁.base output = t.base output := by simp only [base, hgrow.cwd]
    rw [hbase] at hwalk
    exact hwalk.resolve_eq (by decide) hgrow.link_iff hsee ho
  refine ⟨f.location, bytes, cs, hread, hdec, ht, hwrites, ?_, ?_, ?_⟩
  · exact readFile_of_kept hl (by decide) hf (insert_cwd ..) hwrites.written hkept
  · intro hsee
    rw [ho, htarget hsee]
  · intro hsee hsee'
    obtain ⟨l, hloc⟩ := readFile_eq_ok_iff.1 hread
    have hwalk' := (locate_eq_ok_iff.1 hloc).2
    have horigin : origin = pathAt l := hwalk'.resolve_eq (by decide) (fun _ _ => .rfl) hsee hs
    have hother : l ≠ f.location := by
      rintro rfl
      exact hne (by rw [htarget hsee', horigin])
    exact readFile_of_kept hloc (by decide) (.inr ⟨bytes, rfl⟩) ((insert_cwd ..).trans hgrow.cwd)
      ((hwrites.others l bytes hother).2 hwalk'.find?)
      fun l' x hx hl' => hkept l' x hx (hgrow.kept l' x hl')

end

/-- The source is read from its own directory, the output is given by a way up, through a link and
a directory that is not there. -/
theorem successful_build_writes_one_file_through_link :
    let t : FileTree :=
      ⟨[(["d"], .directory),
        (["d", "s"], .file (Text.encodeUtf8 "Entity(a,\"A\")")), (["l"], .link "d")], ["d"]⟩
    let source : Path := .ofText "s"
    let output : Path := .ofText "../l/n/../o"
    let r := transpileFile t source output true
    r.1 = .ok ["a[A]"] ∧ t.inSight source = true ∧ t.inSight output = true ∧
      ∃ l bytes, t.resolve output = .ok (pathAt l) ∧
        Writes t r.2 l (Text.encodeUtf8 (renderDocument true ["a[A]"])) ∧
        t.readFile source = .ok bytes ∧ r.2.readFile source = .ok bytes := by
  intro t source output r
  have hr : r.1 = .ok ["a[A]"] := by decide +kernel
  have hs : t.inSight source = true := by decide +kernel
  have ho : t.inSight output = true := by decide +kernel
  have h : transpileFile t source output true = (.ok ["a[A]"], r.2) := by
    rw [← hr]
  obtain ⟨l, bytes, -, hread, -, -, hw, -, hres, hkept⟩ := successful_build_writes_one_file h
  exact ⟨hr, hs, ho, l, bytes, hres ho, hw, hread, hkept hs ho⟩

/-! ## A link out of sight -/

namespace FileTree

/-- Steps up from the working directory, and names behind them. -/
def upThen (n : Nat) (names : List RawText) : Path :=
  ⟨.relative, List.replicate n (".." : RawText) ++ names⟩

section
variable {t : FileTree} {names : List RawText} {n : Nat}

theorem upThen_raw_succ (n : Nat) (h : names ≠ []) :
    (upThen (n + 1) names).raw = ("../" : RawText) ++ (upThen n names).raw := by
  have hne : List.replicate n (".." : RawText) ++ names ≠ [] := by simp [h]
  simp only [upThen, Path.raw, Path.rootText, List.replicate_succ, List.cons_append]
  rw [List.intercalate_cons_of_ne_nil hne]
  simp [hne]
  rfl

theorem upThen_text_succ (n : Nat) (h : names ≠ []) :
    (upThen (n + 1) names).text = "../" ++ (upThen n names).text := by
  rw [Path.text, upThen_raw_succ n h, Text.printed, List.flatMap_append, String.ofList_append]
  rfl

theorem upThen_text_size (n : Nat) (h : names ≠ []) :
    (upThen n names).text.utf8ByteSize = 3 * n + (upThen 0 names).text.utf8ByteSize := by
  induction n with
  | zero => rw [Nat.mul_zero, Nat.zero_add]
  | succ n ih =>
    rw [upThen_text_succ n h, String.utf8ByteSize_append, ih]
    have : "../".utf8ByteSize = 3 := by decide
    omega

/-- Steps up keep a path from being asked about by nothing but their length. -/
theorem upThen_askable (n : Nat) (h : names ≠ []) (h0 : Askable (upThen 0 names))
    (hsize : 3 * n + (upThen 0 names).text.utf8ByteSize < maxPath) :
    Askable (upThen n names) := by
  refine ⟨?_, ?_, by rwa [upThen_text_size n h]⟩
  · clear hsize
    induction n with
    | zero => exact h0.encodable
    | succ n ih =>
      rw [upThen_raw_succ n h, Text.hasSurrogate, List.any_append]
      exact ih
  · clear hsize
    induction n with
    | zero => exact h0.no_null
    | succ n ih =>
      rw [upThen_text_succ n h, String.toList_append, List.contains_append, ih]
      rfl

/-- Nothing is above the root, so steps up do not move a walk there. -/
theorem walk_upThen (purpose : Purpose) (links n : Nat) (names : List RawText) :
    t.walk purpose links [] (List.replicate n (".." : RawText) ++ names) =
      t.walk purpose links [] names := by
  induction n with
  | zero => rfl
  | succ n ih => rw [List.replicate_succ, List.cons_append, walk_up _ t.find?_nil]; exact ih

/-- Resolving writes each step up. -/
theorem follow_upThen (hcwd : t.cwd = []) (fuel n : Nat) (above : Nat) :
    t.follow (fuel + n) [] ⟨some above, []⟩ (List.replicate n (".." : RawText) ++ names) [] =
      t.follow fuel [] ⟨some (above + n), []⟩ names [] := by
  induction n generalizing above with
  | zero => rfl
  | succ n ih =>
    have hup : Spot.up t.cwd ⟨some above, []⟩ = ⟨some (above + 1), []⟩ := by simp [Spot.up, hcwd]
    rw [List.replicate_succ, List.cons_append, ← Nat.add_assoc, follow, if_neg (by decide),
      if_pos rfl, hup, ih, Nat.add_assoc, Nat.add_comm 1]

theorem locate_upThen (purpose : Purpose) (hcwd : t.cwd = []) (h : names ≠ [])
    (h0 : Askable (upThen 0 names))
    (hsize : 3 * n + (upThen 0 names).text.utf8ByteSize < maxPath) :
    t.locate purpose (upThen n names) =
      (t.walk purpose maxLinks [] names).mapError (.os · (upThen n names).text) := by
  have hbase : t.base (upThen n names) = [] := hcwd
  rw [locate_of_askable purpose (upThen_askable n h h0 hsize), hbase]
  exact congrArg _ (walk_upThen purpose maxLinks n names)

theorem canLookUp_upThen (hcwd : t.cwd = []) (h : names ≠ []) :
    t.canLookUp ⟨some n, names⟩ =
      decide (3 * n + (upThen 0 names).text.utf8ByteSize < maxPath) := by
  have hway : Spot.way t.cwd ⟨some n, names⟩ = upThen n names := by simp [Spot.way, upThen, hcwd]
  rw [canLookUp, hway, upThen_text_size n h]

end

/-- The output `o` is a link to the source `s` next to it, and `l` leads to the directory of
both. -/
def linkToSource : FileTree where
  entries :=
    [(["dddd"], .directory),
      (["dddd", "s"], .file (Text.encodeUtf8 "Entity(a,\"A\")")),
      (["dddd", "o"], .link "s"), (["l"], .link "dddd")]
  cwd := []

section
variable {n : Nat}

/-- The way to `l` is short enough to be looked up. Behind it `dddd` stands in the way instead of
`l`, so that the way to the link `o` is too long. -/
theorem resolve_linkToSource (hshort : 3 * n + 3 < maxPath) (hlong : maxPath ≤ 3 * n + 6) :
    linkToSource.resolve (upThen n ["l", "o"]) = .ok (pathAt ["dddd", "o"]) := by
  have hl : linkToSource.linkAt? ⟨some n, ["l"]⟩ = some "dddd" := by
    have hsize : (upThen 0 ["l"]).text.utf8ByteSize = 1 := by decide +kernel
    rw [linkAt?_eq, canLookUp_upThen rfl (by simp), hsize, if_pos (by simp; omega)]
    rfl
  have ho : linkToSource.linkAt? ⟨some n, ["dddd", "o"]⟩ = none := by
    have hsize : (upThen 0 ["dddd", "o"]).text.utf8ByteSize = 6 := by decide +kernel
    rw [linkAt?_eq, canLookUp_upThen rfl (by simp), hsize, if_neg (by simpa using hlong)]
  have hfollow (fuel : Nat) : linkToSource.follow (fuel + 5) [] ⟨some n, []⟩ ["l", "o"] [] =
      .ok (pathAt ["dddd", "o"]) := by
    have hpieces : writtenPieces "dddd" = [("dddd" : RawText)] := by decide +kernel
    have hd : linkToSource.linkAt? ⟨some n, ["dddd"]⟩ = none := rfl
    simp +decide [follow, Spot.down, hl, hd, ho, hpieces]
  have hsteps : linkToSource.maxSteps (upThen n ["l", "o"]) = 16386 + 5 + n := by
    have hlinks : linkToSource.linkSteps = 4 := by decide +kernel
    simp only [maxSteps, upThen, hlinks, List.length_append, List.length_replicate, maxPath,
      List.length_cons, List.length_nil]
    omega
  have hstart : linkToSource.start (upThen n ["l", "o"]) = ⟨some 0, []⟩ := rfl
  have hq : linkToSource.follow (linkToSource.maxSteps (upThen n ["l", "o"])) []
      (linkToSource.start (upThen n ["l", "o"])) (upThen n ["l", "o"]).parts [] =
      .ok (pathAt ["dddd", "o"]) := by
    rw [hsteps, hstart, upThen, follow_upThen rfl, Nat.zero_add]
    exact hfollow 16386
  have hfound : linkToSource.locate .target (pathAt ["dddd", "o"]) =
      .ok (.entry ["dddd", "s"] (.file (Text.encodeUtf8 "Entity(a,\"A\")"))) := by
    decide +kernel
  rw [resolve, hq]
  simp only [bind, Except.bind, hfound]
  rfl

/-- The document goes where the links lead, which is the source. -/
theorem writeDocument_linkToSource (hshort : 3 * n + 3 < maxPath) (ls : List String)
    (fenced : Bool) :
    writeDocument linkToSource ls (upThen n ["l", "o"]) fenced =
      (.ok (), linkToSource.insert ["dddd", "s"]
        (.file (Text.encodeUtf8 (renderDocument fenced ls)))) := by
  have hparent : (upThen n ["l", "o"]).parent = upThen n ["l"] := by
    simp [upThen, Path.parent, List.dropLast_append_of_ne_nil]
  have hl : (upThen 0 ["l"]).text.utf8ByteSize = 1 := by decide +kernel
  have ho : (upThen 0 ["l", "o"]).text.utf8ByteSize = 3 := by decide +kernel
  have hlAsk : Askable (upThen 0 ["l"]) := ⟨rfl, by decide +kernel, by decide +kernel⟩
  have hoAsk : Askable (upThen 0 ["l", "o"]) := ⟨rfl, by decide +kernel, by decide +kernel⟩
  have hlink : linkToSource.locate .itself (upThen n ["l"]) =
      .ok (.entry ["l"] (.link "dddd")) := by
    rw [locate_upThen _ rfl (by simp) hlAsk (by omega)]
    rfl
  have hdir : linkToSource.locate .target (upThen n ["l"]) = .ok (.entry ["dddd"] .directory) := by
    rw [locate_upThen _ rfl (by simp) hlAsk (by omega)]
    rfl
  have hfile : linkToSource.locate .creation (upThen n ["l", "o"]) =
      .ok (.entry ["dddd", "s"] (.file (Text.encodeUtf8 "Entity(a,\"A\")"))) := by
    rw [locate_upThen _ rfl (by simp) hoAsk (by omega)]
    rfl
  have hdirs : linkToSource.ensureDirectory (upThen n ["l"]) = .ok linkToSource := by
    simp [ensureDirectory, makeDirectory, isDirectory, entry?, hlink, hdir, bind, Except.bind,
      Except.map]
  rw [writeDocument, hparent, ensureDirectories, hdirs]
  simp [writeFile, hfile, bind, Except.bind, pure, Except.pure]

theorem transpileFile_linkToSource (hshort : 3 * n + 3 < maxPath) (hlong : maxPath ≤ 3 * n + 6) :
    transpileFile linkToSource (.ofText "dddd/s") (upThen n ["l", "o"]) true =
      (.ok ["a[A]"], linkToSource.insert ["dddd", "s"]
        (.file (Text.encodeUtf8 (renderDocument true ["a[A]"])))) := by
  have hcompile : compileFile linkToSource (.ofText "dddd/s") (upThen n ["l", "o"]) =
      .ok ["a[A]"] :=
    compileFile_eq_ok_iff.2 ⟨pathAt ["dddd", "o"], pathAt ["dddd", "s"],
      sourceLines "Entity(a,\"A\")", resolve_linkToSource hshort hlong,
      by decide +kernel, by decide, by decide +kernel, by decide +kernel⟩
  rw [transpileFile, hcompile]
  simp only [writeDocument_linkToSource hshort]

end

end FileTree

/-- A source is overwritten by its own document: the output is a link to it that is out of
sight. -/
theorem build_overwrites_source_out_of_sight :
    (transpileFile linkToSource (.ofText "dddd/s") (upThen 1364 ["l", "o"]) true).1 =
        .ok ["a[A]"] ∧
      (transpileFile linkToSource (.ofText "dddd/s") (upThen 1364 ["l", "o"]) true).2.readFile
        (.ofText "dddd/s") ≠ linkToSource.readFile (.ofText "dddd/s") := by
  rw [transpileFile_linkToSource (by decide) (by decide)]
  exact ⟨rfl, by decide +kernel⟩

end Flowchart

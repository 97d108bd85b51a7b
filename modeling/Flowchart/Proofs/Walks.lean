import Flowchart.FileTree.Basic
import Mathlib.Tactic.Common

/-!
# Walks that arrive

`Walk t purpose links here names f` lists the steps of a walk that arrives at
`f`. It says in each case what stands on the way, so that a proof about
successful walks is an induction over its steps and never opens `walk`. What a
walk finds is what the tree holds there.
-/

namespace Flowchart

theorem lookup_cons_ite {α β : Type} [BEq α] [LawfulBEq α] [DecidableEq α] (k : α) (v : β)
    (entries : List (α × β)) (a : α) :
    ((k, v) :: entries).lookup a = if a = k then some v else entries.lookup a := by
  rw [List.lookup_cons]
  by_cases h : a = k
  · rw [if_pos h, beq_iff_eq.2 h]
  · rw [if_neg h, beq_eq_false_iff_ne.2 h]

def Entry.isLink : Entry → Bool
  | link _ => true
  | _ => false

namespace FileTree

/-- The place where a walk arrives. -/
def Found.location : Found → Location
  | entry l _ => l
  | absent l => l

/-- What a walk finds there. -/
def Found.entry? : Found → Option Entry
  | entry _ e => some e
  | absent _ => none

@[simp] theorem dots_ne_nil : (".." : RawText) ≠ [] := by decide

@[simp] theorem dots_ne_dot : (".." : RawText) ≠ "." := by decide

/-- A name that a walk looks up. -/
structure IsName (name : RawText) : Prop where
  ne_empty : name ≠ []
  ne_dot : name ≠ "."
  ne_dots : name ≠ ".."

/-- A name that a walk may pass: it fits a file system, and if a file is to be created, slashes at
the end do not follow it. -/
structure Passable (purpose : Purpose) (name : RawText) (rest : List RawText) : Prop where
  isName : IsName name
  creatable : (decide (purpose = .creation) && !rest.isEmpty && rest.all (· == [])) = false
  short : nameSize name ≤ maxName

/-- Where the target of a link is looked for. -/
def linkBase (here : Location) (target : String) : Location :=
  if startsAtRoot target then [] else here

/-- The walks that arrive. -/
inductive Walk (t : FileTree) (purpose : Purpose) :
    Nat → Location → List RawText → Found → Prop where
  | here {links : Nat} {here : Location} {e : Entry} : t.find? here = some e →
      Walk t purpose links here [] (.entry here e)
  | stay {links : Nat} {here : Location} {name : RawText} {rest : List RawText} {f : Found} :
      t.find? here = some .directory → name = [] ∨ name = "." →
      Walk t purpose links here rest f → Walk t purpose links here (name :: rest) f
  | up {links : Nat} {here : Location} {rest : List RawText} {f : Found} :
      t.find? here = some .directory → Walk t purpose links here.dropLast rest f →
      Walk t purpose links here (".." :: rest) f
  | absent {links : Nat} {here : Location} {name : RawText} :
      t.find? here = some .directory → Passable purpose name [] →
      t.find? (here ++ [name]) = none →
      Walk t purpose links here [name] (.absent (here ++ [name]))
  | stop {links : Nat} {here : Location} {name : RawText} {target : String} :
      purpose = .itself → t.find? here = some .directory → Passable purpose name [] →
      t.find? (here ++ [name]) = some (.link target) →
      Walk t purpose links here [name] (.entry (here ++ [name]) (.link target))
  | link {links : Nat} {here : Location} {name : RawText} {target : String}
      {rest : List RawText} {f : Found} :
      t.find? here = some .directory → Passable purpose name rest →
      t.find? (here ++ [name]) = some (.link target) → rest ≠ [] ∨ purpose ≠ .itself →
      Walk t purpose links (linkBase here target) (writtenPieces target ++ rest) f →
      Walk t purpose (links + 1) here (name :: rest) f
  | down {links : Nat} {here : Location} {name : RawText} {rest : List RawText} {e : Entry}
      {f : Found} :
      t.find? here = some .directory → Passable purpose name rest →
      t.find? (here ++ [name]) = some e → e.isLink = false →
      Walk t purpose links (here ++ [name]) rest f → Walk t purpose links here (name :: rest) f

section
variable {t t' : FileTree} {purpose : Purpose} {links : Nat} {here : Location}
  {names : List RawText} {f : Found}

/-- A walk up to the first link arrives if what is left behind the link does. -/
theorem Walk.of_walkAlong {onLink : Location → List RawText → Except OsError Found}
    (hon : ∀ here names f, onLink here names = .ok f →
      ∃ fewer, links = fewer + 1 ∧ Walk t purpose fewer here names f)
    (h : t.walkAlong purpose onLink here names = .ok f) : Walk t purpose links here names f := by
  have hdir {here : Location} (hd : ¬(!t.isDirectoryAt here) = true) :
      t.find? here = some .directory := by
    simpa [isDirectoryAt] using hd
  have hpass {name : RawText} {rest : List RawText}
      (h1 : ¬(decide (name = []) || decide (name = ".")) = true) (h2 : ¬name = "..")
      (h3 : ¬(decide (purpose = .creation) && !rest.isEmpty && rest.all fun x => x == []) = true)
      (h4 : ¬maxName < nameSize name) : Passable purpose name rest := by
    simp only [Bool.or_eq_true, decide_eq_true_eq, not_or] at h1
    exact ⟨⟨h1.1, h1.2, h2⟩, by simpa using h3, Nat.le_of_not_lt h4⟩
  -- the cases that are left out give an error
  fun_induction walkAlong t purpose onLink here names with
  | case2 | case3 | case6 | case7 | case9 => cases h
  | case1 here e he => cases h; exact .here he
  | case4 here name rest hd hn ih => exact .stay (hdir hd) (by simpa using hn) (ih h)
  | case5 here rest hd _ ih => exact .up (hdir hd) (ih h)
  | case8 here name rest hd h1 h2 h3 h4 hf hr =>
    obtain rfl : rest = [] := by simpa using hr
    cases h
    exact .absent (hdir hd) (hpass h1 h2 h3 h4) hf
  | case10 here name rest hd h1 h2 h3 h4 target hf hr =>
    simp only [Bool.and_eq_true, List.isEmpty_iff, decide_eq_true_eq] at hr
    obtain ⟨rfl, hp⟩ := hr
    cases h
    exact .stop hp (hdir hd) (hpass h1 h2 h3 h4) hf
  | case11 here name rest hd h1 h2 h3 h4 target hf hr =>
    have hgo : rest ≠ [] ∨ purpose ≠ .itself := by
      by_contra hc
      simp_all
    obtain ⟨fewer, rfl, hw⟩ := hon _ _ _ h
    exact .link (hdir hd) (hpass h1 h2 h3 h4) hf hgo hw
  | case12 here name rest hd h1 h2 h3 h4 e he hf ih =>
    refine .down (hdir hd) (hpass h1 h2 h3 h4) hf ?_ (ih h)
    cases e with
    | link target => exact (he target rfl).elim
    | _ => rfl

theorem Walk.of_walk (h : t.walk purpose links here names = .ok f) :
    Walk t purpose links here names f := by
  induction links generalizing here names f with
  | zero => exact .of_walkAlong (by rintro _ _ _ ⟨⟩) h
  | succ links ih => exact .of_walkAlong (fun _ _ _ hl => ⟨links, rfl, ih hl⟩) h

theorem walk_nil {e : Entry} (h : t.find? here = some e) :
    t.walk purpose links here [] = .ok (.entry here e) := by
  cases links <;> simp [walk, walkAlong, h]

theorem walk_stay {name : RawText} (rest : List RawText) (hd : t.find? here = some .directory)
    (hn : name = [] ∨ name = ".") :
    t.walk purpose links here (name :: rest) = t.walk purpose links here rest := by
  cases links <;> simp [walk, walkAlong, isDirectoryAt, hd, hn]

theorem walk_up (rest : List RawText) (hd : t.find? here = some .directory) :
    t.walk purpose links here (".." :: rest) = t.walk purpose links here.dropLast rest := by
  cases links <;> simp [walk, walkAlong, isDirectoryAt, hd]

section
variable {name : RawText} {rest : List RawText}
  {onLink : Location → List RawText → Except OsError Found}

theorem walkAlong_absent (hd : t.find? here = some .directory) (hp : Passable purpose name [])
    (hf : t.find? (here ++ [name]) = none) :
    t.walkAlong purpose onLink here [name] = .ok (.absent (here ++ [name])) := by
  have hn := hp.isName
  simp [walkAlong, isDirectoryAt, hd, hf, hn.ne_empty, hn.ne_dot, hn.ne_dots,
    Nat.not_lt.2 hp.short]

theorem walkAlong_link {target : String} (hd : t.find? here = some .directory)
    (hp : Passable purpose name rest) (hf : t.find? (here ++ [name]) = some (.link target)) :
    t.walkAlong purpose onLink here (name :: rest) =
      if rest.isEmpty && purpose = .itself then .ok (.entry (here ++ [name]) (.link target))
      else onLink (linkBase here target) (writtenPieces target ++ rest) := by
  have hn := hp.isName
  simp only [walkAlong, isDirectoryAt, hd, hf, beq_self_eq_true, Bool.not_true,
    Bool.false_eq_true, ↓reduceIte, hn.ne_empty, hn.ne_dot, hn.ne_dots, decide_false,
    Bool.or_false, hp.creatable, Nat.not_lt.2 hp.short, linkBase]

theorem walkAlong_down {e : Entry} (hd : t.find? here = some .directory)
    (hp : Passable purpose name rest) (hf : t.find? (here ++ [name]) = some e)
    (he : e.isLink = false) :
    t.walkAlong purpose onLink here (name :: rest) =
      t.walkAlong purpose onLink (here ++ [name]) rest := by
  have hn := hp.isName
  cases e with
  | link target => cases he
  | _ =>
    simp only [walkAlong, isDirectoryAt, hd, hf, beq_self_eq_true, Bool.not_true,
      Bool.false_eq_true, ↓reduceIte, hn.ne_empty, hn.ne_dot, hn.ne_dots, decide_false,
      Bool.or_false, hp.creatable, Nat.not_lt.2 hp.short]

end

theorem Walk.walk_eq (h : Walk t purpose links here names f) :
    t.walk purpose links here names = .ok f := by
  induction h with
  | here he => exact walk_nil he
  | stay hd hn _ ih => rw [walk_stay _ hd hn, ih]
  | up hd _ ih => rw [walk_up _ hd, ih]
  | @absent links _ _ hd hp hf => cases links <;> exact walkAlong_absent hd hp hf
  | @stop links _ _ _ hi hd hp hf =>
    cases links <;> (rw [walk, walkAlong_link hd hp hf]; simp [hi])
  | @link links here name target rest f hd hp hf hgo _ ih =>
    have hstop : (rest.isEmpty && decide (purpose = .itself)) = false := by
      by_contra hc
      simp_all
    rw [walk, walkAlong_link hd hp hf, hstop, if_neg Bool.false_ne_true]
    exact ih
  | @down links here name rest e f hd hp hf hl _ ih =>
    cases links <;> (rw [walk, walkAlong_down hd hp hf hl]; exact ih)

theorem walk_eq_ok_iff : t.walk purpose links here names = .ok f ↔
    Walk t purpose links here names f := ⟨Walk.of_walk, Walk.walk_eq⟩

/-- A walk finds what the tree holds where it arrives. -/
theorem Walk.find? (h : Walk t purpose links here names f) :
    t.find? f.location = f.entry? := by
  induction h with
  | here he => exact he
  | absent _ _ hf => exact hf
  | stop _ _ _ hf => exact hf
  | stay _ _ _ ih | up _ _ ih | link _ _ _ _ _ ih | down _ _ _ _ _ ih => exact ih

theorem Passable.target {name : RawText} {rest : List RawText} (h : Passable purpose name rest) :
    Passable .target name rest := ⟨h.isName, by simp, h.short⟩

/-- A walk to where a file is or may be arrives at the file that another tree has there, if that
tree keeps directories and links. Other files on the way do not matter: there are none. -/
theorem Walk.of_kept (h : Walk t purpose links here names f) (hp : purpose ≠ .itself)
    (hf : f.entry? = none ∨ ∃ old, f.entry? = some (.file old)) {bytes : List UInt8}
    (hend : t'.find? f.location = some (.file bytes))
    (hkept : ∀ l x, (∀ old, x ≠ .file old) → t.find? l = some x → t'.find? l = some x) :
    Walk t' .target links here names (.entry f.location (.file bytes)) := by
  have hdir {l : Location} (hd : t.find? l = some .directory) : t'.find? l = some .directory :=
    hkept l _ (by simp) hd
  have hlink {l : Location} {target : String} (hl : t.find? l = some (.link target)) :
      t'.find? l = some (.link target) := hkept l _ (by simp) hl
  induction h with
  | here => exact .here hend
  | stay hd hn _ ih => exact .stay (hdir hd) hn (ih hf hend)
  | up hd _ ih => exact .up (hdir hd) (ih hf hend)
  | absent hd hpass => exact .down (hdir hd) hpass.target hend rfl (.here hend)
  | stop hi => exact (hp hi).elim
  | link hd hpass hl _ _ ih =>
    exact .link (hdir hd) hpass.target (hlink hl) (.inr (by decide)) (ih hf hend)
  | @down links here name rest x f hd hpass hx hl hw ih =>
    cases x with
    | directory => exact .down (hdir hd) hpass.target (hdir hx) rfl (ih hf hend)
    | link target => cases hl
    | file old =>
      -- no walk leaves a file, so this is where it arrives
      cases hw with
      | here => exact .down (hdir hd) hpass.target hend rfl (.here hend)
      | _ => simp_all

end

end FileTree

end Flowchart

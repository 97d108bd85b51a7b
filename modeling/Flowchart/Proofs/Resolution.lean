import Flowchart.FileTree.Resolve
import Flowchart.Proofs.Walks

/-!
# Resolving and walking

Resolving looks a link up by the way written so far, a walk through the tree by
its location. `Leads t k s names s'` says where names lead from a spot if every
link is followed afresh; `follow` keeps the links it has met, and arrives at the
same spot. A path is in sight if resolving can look up every link that a walk
along it follows. Such a path resolves to the place where the walk arrives.
-/

namespace Flowchart.FileTree

namespace Spot

/-- Where the target of a link is resolved from. -/
def linkStart (s : Spot) (target : String) : Spot := if startsAtRoot target then ⟨none, []⟩ else s

@[simp] theorem down_location (s : Spot) (name : RawText) :
    (s.down name).location = s.location ++ [name] := rfl

@[simp] theorem up_location (cwd : Location) (s : Spot) :
    (s.up cwd).location = s.location.dropLast := by
  unfold up
  split
  · split <;> rfl
  · rfl

@[simp] theorem linkStart_location (s : Spot) (target : String) :
    (s.linkStart target).location = linkBase s.location target := by
  unfold linkStart linkBase
  split <;> rfl

theorem down_inj {s s' : Spot} {name name' : RawText} (h : s.down name = s'.down name') :
    s = s' := by
  cases s; cases s'
  simp only [down, Spot.mk.injEq] at h ⊢
  exact ⟨h.1, (List.append_inj' h.2 rfl).1⟩

end Spot

/-! ## Moves -/

/-- What a name asks for: to go to a spot, or to follow a link. -/
inductive Move where
  | go (s : Spot)
  | link (target : String)

/-- The move at a name, given what tells links from other names. -/
def moveBy (t : FileTree) (link? : Spot → Option String) (s : Spot) (name : RawText) : Move :=
  if name = [] || name = "." then .go s
  else if name = ".." then .go (s.up t.cwd)
  else
    match link? (s.down name) with
    | some target => .link target
    | none => .go (s.down name)

/-- The target of the link at a spot, whatever the way to it. -/
def linkHere? (t : FileTree) (s : Spot) : Option String :=
  match t.find? s.location with
  | some (.link target) => some target
  | _ => none

section
variable {t : FileTree} {link? : Spot → Option String} {s next : Spot} {name : RawText}
  {target : String}

theorem moveBy_stay (h : name = [] ∨ name = ".") : t.moveBy link? s name = .go s := by
  simp [moveBy, h]

theorem moveBy_up : t.moveBy link? s ".." = .go (s.up t.cwd) := by
  simp [moveBy]

theorem moveBy_name (h : IsName name) :
    t.moveBy link? s name =
      match link? (s.down name) with
      | some target => .link target
      | none => .go (s.down name) := by
  simp [moveBy, h.ne_empty, h.ne_dot, h.ne_dots]

theorem linkHere?_eq_some_iff :
    t.linkHere? s = some target ↔ t.find? s.location = some (.link target) := by
  unfold linkHere?
  split <;> simp_all

/-- A link is looked up if its way is not too long. -/
theorem linkAt?_eq (t : FileTree) (s : Spot) :
    t.linkAt? s = if t.canLookUp s then t.linkHere? s else none := by
  unfold linkAt? linkHere?
  cases t.find? s.location with
  | none => simp
  | some e => cases e <;> simp

theorem moveBy_linkAt?_of_go (h : t.moveBy t.linkHere? s name = .go next) :
    t.moveBy t.linkAt? s name = .go next := by
  unfold moveBy at h ⊢
  split
  · rwa [if_pos ‹_›] at h
  · rw [if_neg ‹_›] at h
    split
    · rwa [if_pos ‹_›] at h
    · rw [if_neg ‹_›] at h
      cases hl : t.linkHere? (s.down name) with
      | some target => rw [hl] at h; cases h
      | none => rw [linkAt?_eq, hl, ite_self]; rwa [hl] at h

theorem moveBy_linkAt?_of_link (h : t.moveBy t.linkHere? s name = .link target)
    (hsee : t.canLookUp (s.down name) = true) : t.moveBy t.linkAt? s name = .link target := by
  have hlink : t.linkAt? (s.down name) = t.linkHere? (s.down name) := by
    rw [linkAt?_eq, if_pos hsee]
  simpa only [moveBy, hlink] using h

end

/-! ## Following links afresh -/

/-- Names lead from a spot to another one, over a number of links. -/
inductive Leads (t : FileTree) : Nat → Spot → List RawText → Spot → Prop where
  | done {s : Spot} : Leads t 0 s [] s
  | go {k : Nat} {s next s' : Spot} {name : RawText} {rest : List RawText} :
      t.moveBy t.linkAt? s name = .go next → Leads t k next rest s' →
      Leads t k s (name :: rest) s'
  | link {j k : Nat} {s mid s' : Spot} {name : RawText} {target : String} {rest : List RawText} :
      t.moveBy t.linkAt? s name = .link target →
      Leads t j (s.linkStart target) (writtenPieces target) mid → Leads t k mid rest s' →
      Leads t (j + k + 1) s (name :: rest) s'

section
variable {t : FileTree} {j k : Nat} {s s' mid : Spot} {names : List RawText}

theorem Leads.unique (h : Leads t k s names s') {k' : Nat} {s'' : Spot}
    (h' : Leads t k' s names s'') : k = k' ∧ s' = s'' := by
  induction h generalizing k' s'' with
  | done => cases h'; exact ⟨rfl, rfl⟩
  | go hm _ ih =>
    cases h' with
    | go hm' hr => rw [hm] at hm'; cases hm'; exact ih hr
    | link hm' => rw [hm] at hm'; cases hm'
  | link hm _ _ iht ihr =>
    cases h' with
    | go hm' => rw [hm] at hm'; cases hm'
    | link hm' ht hr =>
      rw [hm] at hm'
      cases hm'
      obtain ⟨rfl, rfl⟩ := iht ht
      obtain ⟨rfl, rfl⟩ := ihr hr
      exact ⟨rfl, rfl⟩

theorem Leads.split {first : List RawText} (h : Leads t k s (first ++ names) s') :
    ∃ j j' mid, Leads t j s first mid ∧ Leads t j' mid names s' ∧ k = j + j' := by
  induction first generalizing k s with
  | nil => exact ⟨0, k, s, .done, h, (Nat.zero_add k).symm⟩
  | cons name first ih =>
    rw [List.cons_append] at h
    cases h with
    | go hm hr =>
      obtain ⟨j, j', mid, h1, h2, rfl⟩ := ih hr
      exact ⟨j, j', mid, .go hm h1, h2, rfl⟩
    | link hm ht hr =>
      obtain ⟨j, j', mid, h1, h2, rfl⟩ := ih hr
      exact ⟨_, j', mid, .link hm ht h1, h2, by omega⟩

/-- The link at a spot leads to another one. -/
def LinkLeads (t : FileTree) (j : Nat) (link there : Spot) : Prop :=
  ∃ s name target, link = s.down name ∧ t.moveBy t.linkAt? s name = .link target ∧
    Leads t j (s.linkStart target) (writtenPieces target) there

theorem moveBy_eq_link {link? : Spot → Option String} {name : RawText} {target : String}
    (h : t.moveBy link? s name = .link target) :
    IsName name ∧ link? (s.down name) = some target := by
  unfold moveBy at h
  split at h
  · cases h
  · rename_i h1
    split at h
    · cases h
    · rename_i h2
      simp only [Bool.or_eq_true, decide_eq_true_eq, not_or] at h1
      split at h
      · rename_i hl
        cases h
        exact ⟨⟨h1.1, h1.2, h2⟩, hl⟩
      · cases h

theorem LinkLeads.unique {link there there' : Spot} (h : LinkLeads t j link there)
    (h' : LinkLeads t k link there') : j = k ∧ there = there' := by
  obtain ⟨s, name, target, rfl, hm, hl⟩ := h
  obtain ⟨s', name', target', hs, hm', hl'⟩ := h'
  have ht := (moveBy_eq_link hm).2
  rw [hs, (moveBy_eq_link hm').2] at ht
  cases ht
  obtain rfl := Spot.down_inj hs
  exact hl.unique hl'

end

/-! ## The links met so far -/

/-- Links that are resolved have the spot that they lead to. -/
def Settled (t : FileTree) (seen : List (Spot × Option Spot)) : Prop :=
  ∀ link there, seen.lookup link = some (some there) → ∃ j, LinkLeads t j link there

/-- Links that are being resolved take at least a number of links. -/
def Opened (t : FileTree) (k : Nat) (seen : List (Spot × Option Spot)) : Prop :=
  ∀ link, seen.lookup link = some none → ∃ j there, LinkLeads t j link there ∧ k ≤ j

/-- No link is being resolved that was not so before. -/
def Closes (seen seen' : List (Spot × Option Spot)) : Prop :=
  ∀ link, seen'.lookup link = some none → seen.lookup link = some none

theorem Closes.trans {a b c : List (Spot × Option Spot)} (h : Closes a b) (h' : Closes b c) :
    Closes a c := fun link hl => h link (h' link hl)

section
variable {t : FileTree} {j k fuel : Nat} {seen seen' : List (Spot × Option Spot)}
  {s s' next link there : Spot} {name : RawText} {target : String} {names rest : List RawText}
  {pending : List Pending} {q : Path}

theorem Opened.mono (h : Opened t k seen) (hj : j ≤ k) : Opened t j seen := by
  intro link hl
  obtain ⟨i, there, hi, hk⟩ := h link hl
  exact ⟨i, there, hi, Nat.le_trans hj hk⟩

theorem Opened.of_closes (h : Opened t k seen) (hc : Closes seen seen') : Opened t k seen' :=
  fun link hl => h link (hc link hl)

theorem Opened.cons (h : Opened t k seen) (hl : LinkLeads t k link there) :
    Opened t k ((link, none) :: seen) := by
  intro l hlook
  rw [lookup_cons_ite] at hlook
  split at hlook
  · rename_i heq
    exact ⟨k, there, heq ▸ hl, Nat.le_refl k⟩
  · exact h l hlook

theorem Settled.cons_open (h : Settled t seen) (link : Spot) :
    Settled t ((link, none) :: seen) := by
  intro l there hlook
  rw [lookup_cons_ite] at hlook
  split at hlook
  · cases hlook
  · exact h l there hlook

theorem Settled.cons (h : Settled t seen) (hl : LinkLeads t j link there) :
    Settled t ((link, some there) :: seen) := by
  intro l there' hlook
  rw [lookup_cons_ite] at hlook
  split at hlook
  · rename_i heq
    cases hlook
    exact ⟨j, heq ▸ hl⟩
  · exact h l there' hlook

/-- Once a link is resolved, it is not being resolved any more. -/
theorem Closes.settle (h : Closes ((link, none) :: seen) seen') (there : Spot) :
    Closes seen ((link, some there) :: seen') := by
  intro l hlook
  rw [lookup_cons_ite] at hlook
  split at hlook
  · cases hlook
  · rename_i hne
    have hopen := h l hlook
    rwa [lookup_cons_ite, if_neg hne] at hopen

/-! ## Following with memory -/

theorem follow_go (hm : t.moveBy t.linkAt? s name = .go next)
    (h : t.follow (fuel + 1) seen s (name :: rest) pending = .ok q) :
    t.follow fuel seen next rest pending = .ok q := by
  unfold moveBy at hm
  rw [follow] at h
  split at hm
  · cases hm
    rwa [if_pos ‹_›] at h
  · rw [if_neg ‹_›] at h
    split at hm
    · cases hm
      rwa [if_pos ‹_›] at h
    · rw [if_neg ‹_›] at h
      split at h
      · cases h
      split at h
      · cases h
      split at hm
      · cases hm
      · rename_i hl
        cases hm
        simpa only [hl] using h

theorem follow_link (hm : t.moveBy t.linkAt? s name = .link target)
    (h : t.follow (fuel + 1) seen s (name :: rest) pending = .ok q) :
    (match seen.lookup (s.down name) with
      | some (some there) => t.follow fuel seen there rest pending
      | some none => .ok (leave (pathAt (s.down name).location) rest pending)
      | none =>
        t.follow fuel ((s.down name, none) :: seen) (s.linkStart target) (writtenPieces target)
          (⟨s.down name, rest⟩ :: pending)) = .ok q := by
  obtain ⟨hn, hl⟩ := moveBy_eq_link hm
  rw [follow] at h
  simp only [hn.ne_empty, hn.ne_dot, hn.ne_dots, decide_false, Bool.or_false, Bool.false_eq_true,
    ↓reduceIte, hl] at h
  split at h
  · cases h
  split at h
  · cases h
  · exact h

theorem entrySteps_le_foldl {entries : List (Location × Entry)} {x : Location × Entry} (n : Nat)
    (h : x ∈ entries) : n + entrySteps x.2 ≤ entries.foldl (fun n x => n + entrySteps x.2) n := by
  have hle (n : Nat) (entries : List (Location × Entry)) :
      n ≤ entries.foldl (fun n x => n + entrySteps x.2) n := by
    induction entries generalizing n with
    | nil => exact Nat.le_refl n
    | cons y entries ih => exact Nat.le_trans (Nat.le_add_right _ _) (ih _)
  induction entries generalizing n with
  | nil => cases h
  | cons y entries ih =>
    rcases List.mem_cons.1 h with rfl | h
    · exact hle _ entries
    · exact Nat.le_trans (Nat.add_le_add_right (Nat.le_add_right n _) _) (ih _ h)

/-- Following a link of the tree takes no more than the steps of all links. -/
theorem linkAt?_steps (h : t.linkAt? s = some target) :
    (writtenPieces target).length + 1 ≤ t.linkSteps := by
  have hf : t.find? s.location = some (.link target) := by
    rw [linkAt?_eq] at h
    split at h
    · exact linkHere?_eq_some_iff.1 h
    · cases h
  unfold find? at hf
  split at hf
  · cases hf
  · have hmem : (s.location, Entry.link target) ∈ t.entries := by
      obtain ⟨l₁, l₂, hl, -⟩ := List.lookup_eq_some_iff.1 hf
      rw [hl]
      simp
    have := entrySteps_le_foldl 0 hmem
    rwa [Nat.zero_add] at this

/-- Following with memory arrives where the names lead, with fuel to spare. The induction is on the
links as they are followed afresh; a link that is being resolved is not met again, since resolving
it would take more links than it takes. -/
theorem Leads.follow (h : Leads t k s names s') (spare : Nat)
    (hfuel : names.length + k * t.linkSteps + spare ≤ fuel) (hset : Settled t seen)
    (hopen : Opened t k seen) (hq : t.follow fuel seen s names pending = .ok q) :
    ∃ fuel' seen', spare ≤ fuel' ∧ t.follow fuel' seen' s' [] pending = .ok q ∧
      Settled t seen' ∧ Closes seen seen' := by
  induction h generalizing fuel seen pending spare with
  | done => exact ⟨fuel, seen, by simpa using hfuel, hq, hset, fun _ hl => hl⟩
  | go hm _ ih =>
    simp only [List.length_cons] at hfuel
    obtain ⟨fuel, rfl⟩ : ∃ m, fuel = m + 1 := ⟨fuel - 1, by omega⟩
    exact ih spare (by omega) hset hopen (follow_go hm hq)
  | @link j k s mid s' name target rest hm ht hr iht ihr =>
    have hsteps := linkAt?_steps (moveBy_eq_link hm).2
    have hleads : LinkLeads t j (s.down name) mid := ⟨s, name, target, rfl, hm, ht⟩
    simp only [List.length_cons, Nat.add_mul, Nat.one_mul] at hfuel
    obtain ⟨fuel, rfl⟩ : ∃ m, fuel = m + 1 := ⟨fuel - 1, by omega⟩
    have hq := follow_link hm hq
    split at hq
    · -- the link has been resolved before
      rename_i there hlook
      obtain ⟨i, hi⟩ := hset _ _ hlook
      obtain ⟨rfl, rfl⟩ := hi.unique hleads
      exact ihr spare (by omega) hset (hopen.mono (by omega)) hq
    · rename_i hlook
      obtain ⟨i, there, hi, hk⟩ := hopen _ hlook
      obtain ⟨rfl, -⟩ := hi.unique hleads
      omega
    · obtain ⟨fuel₁, seen₁, hspare, hq₁, hset₁, hclose⟩ :=
        iht (rest.length + k * t.linkSteps + spare + 1) (show _ ≤ fuel by omega)
          (hset.cons_open _) ((hopen.mono (by omega)).cons hleads) hq
      obtain ⟨fuel₁, rfl⟩ : ∃ m, fuel₁ = m + 1 := ⟨fuel₁ - 1, by omega⟩
      rw [FileTree.follow] at hq₁
      have hclose := hclose.settle mid
      obtain ⟨fuel₂, seen₂, hspare₂, hq₂, hset₂, hclose₂⟩ :=
        ihr spare (by omega) (hset₁.cons hleads)
          ((hopen.of_closes hclose).mono (by omega)) hq₁
      exact ⟨fuel₂, seen₂, hspare₂, hq₂, hset₂, hclose.trans hclose₂⟩

theorem follow_of_resolve {p : Path} (h : t.resolve p = .ok q) :
    t.follow (t.maxSteps p) [] (t.start p) p.parts [] = .ok q := by
  unfold resolve at h
  cases hf : t.follow (t.maxSteps p) [] (t.start p) p.parts [] with
  | error e => rw [hf] at h; cases h
  | ok q' =>
    rw [hf] at h
    simp only [bind, Except.bind] at h
    split at h
    · cases h
    · cases h; rfl
    · cases h; rfl
    · cases h

theorem resolve_of_leads {p : Path} (h : Leads t k (t.start p) p.parts s') (hk : k ≤ maxPath)
    (hq : t.resolve p = .ok q) : q = pathAt s'.location := by
  have hsteps : k * t.linkSteps ≤ t.linkSteps * (maxPath + 1) := by
    rw [Nat.mul_comm]
    exact Nat.mul_le_mul_left _ (Nat.le_succ_of_le hk)
  have hset : Settled t [] := fun _ _ hl => by cases hl
  have hopen : Opened t k [] := fun _ hl => by cases hl
  obtain ⟨fuel, seen, hfuel, hend, -, -⟩ :=
    h.follow 1 (by unfold maxSteps; omega) hset hopen (follow_of_resolve hq)
  obtain ⟨fuel, rfl⟩ : ∃ m, fuel = m + 1 := ⟨fuel - 1, by omega⟩
  simp only [FileTree.follow, Except.ok.injEq] at hend
  exact hend.symm

end

/-! ## Sight -/

/-- Whether resolving can look up the next link on the way from a spot, where `onLink` asks about
the way from there. -/
def sightAlong (t : FileTree) (onLink : Spot → List RawText → Bool) (s : Spot) :
    List RawText → Bool
  | [] => true
  | name :: rest =>
    match t.moveBy t.linkHere? s name with
    | .go next => t.sightAlong onLink next rest
    | .link target =>
      t.canLookUp (s.down name) && onLink (s.linkStart target) (writtenPieces target ++ rest)

/-- Whether resolving can look up all links on the way from a spot, up to a number of them. -/
def sight (t : FileTree) : Nat → Spot → List RawText → Bool
  | 0 => t.sightAlong fun _ _ => true
  | links + 1 => t.sightAlong (t.sight links)

/-- Whether resolving a path can look up every link on the way that the system follows. -/
def inSight (t : FileTree) (p : Path) : Bool := t.sight maxLinks (t.start p) p.parts

section
variable {t t' : FileTree} {purpose : Purpose} {links : Nat} {here : Location} {s next : Spot}
  {name : RawText} {target : String} {names rest : List RawText} {f : Found} {p q : Path}

theorem sight_go (h : t.moveBy t.linkHere? s name = .go next) :
    t.sight links s (name :: rest) = t.sight links next rest := by
  cases links <;> simp only [sight, sightAlong, h]

theorem sight_link (h : t.moveBy t.linkHere? s name = .link target) :
    t.sight (links + 1) s (name :: rest) =
      (t.canLookUp (s.down name) &&
        t.sight links (s.linkStart target) (writtenPieces target ++ rest)) := by
  simp only [sight, sightAlong, h]

/-- A walk whose links are in sight leads to the same place. It may be a walk in another tree, as
long as the links are the same. -/
theorem Walk.leads (h : Walk t' purpose links here names f) (hp : purpose ≠ .itself)
    (hlinks : ∀ l target, t'.find? l = some (.link target) ↔ t.find? l = some (.link target))
    (hs : s.location = here) (hsight : t.sight links s names = true) :
    ∃ k s', k ≤ links ∧ Leads t k s names s' ∧ s'.location = f.location := by
  -- a name that is no link in the other tree is none here
  have hgo {here : Location} {s : Spot} {name : RawText} (hs : s.location = here) (hn : IsName name)
      (hf : ∀ target, t'.find? (here ++ [name]) ≠ some (.link target)) :
      t.moveBy t.linkHere? s name = .go (s.down name) := by
    have hnone : t.linkHere? (s.down name) = none := by
      rw [Option.eq_none_iff_forall_ne_some]
      intro target hl
      rw [linkHere?_eq_some_iff, Spot.down_location, hs, ← hlinks] at hl
      exact hf target hl
    rw [moveBy_name hn, hnone]
  induction h generalizing s with
  | here he => exact ⟨0, s, Nat.zero_le _, .done, hs⟩
  | stay hd hn _ ih =>
    have hm : t.moveBy t.linkHere? s _ = .go s := moveBy_stay hn
    obtain ⟨k, s', hk, hl, he⟩ := ih hs (sight_go hm ▸ hsight)
    exact ⟨k, s', hk, .go (moveBy_linkAt?_of_go hm) hl, he⟩
  | up hd _ ih =>
    have hm : t.moveBy t.linkHere? s ".." = .go (s.up t.cwd) := moveBy_up
    obtain ⟨k, s', hk, hl, he⟩ := ih (by rw [Spot.up_location, hs]) (sight_go hm ▸ hsight)
    exact ⟨k, s', hk, .go (moveBy_linkAt?_of_go hm) hl, he⟩
  | absent hd hpass hf =>
    have hm := hgo hs hpass.isName (by simp [hf])
    exact ⟨0, _, Nat.zero_le _, .go (moveBy_linkAt?_of_go hm) .done, by
      rw [Spot.down_location, hs]; rfl⟩
  | stop hi => exact (hp hi).elim
  | @link links here name target rest f hd hpass hf hgo' _ ih =>
    have hm : t.moveBy t.linkHere? s name = .link target := by
      rw [moveBy_name hpass.isName, linkHere?_eq_some_iff.2]
      rwa [Spot.down_location, hs, ← hlinks]
    rw [sight_link hm, Bool.and_eq_true] at hsight
    obtain ⟨k, s', hk, hl, he⟩ := ih (by rw [Spot.linkStart_location, hs]) hsight.2
    obtain ⟨j, j', mid, h1, h2, rfl⟩ := hl.split
    exact ⟨j + j' + 1, s', Nat.succ_le_succ hk,
      .link (moveBy_linkAt?_of_link hm hsight.1) h1 h2, he⟩
  | @down links here name rest e f hd hpass hf hlink _ ih =>
    have hm := hgo hs hpass.isName (by rintro target ht; rw [hf] at ht; cases ht; cases hlink)
    obtain ⟨k, s', hk, hl, he⟩ := ih (by rw [Spot.down_location, hs]) (sight_go hm ▸ hsight)
    exact ⟨k, s', hk, .go (moveBy_linkAt?_of_go hm) hl, he⟩

theorem start_location (t : FileTree) (p : Path) : (t.start p).location = t.base p := by
  unfold start base
  split <;> rfl

/-- A path in sight resolves to the place where a walk along it arrives. -/
theorem Walk.resolve_eq (h : Walk t' purpose maxLinks (t.base p) p.parts f)
    (hp : purpose ≠ .itself)
    (hlinks : ∀ l target, t'.find? l = some (.link target) ↔ t.find? l = some (.link target))
    (hsight : t.inSight p = true) (hq : t.resolve p = .ok q) : q = pathAt f.location := by
  obtain ⟨k, s', hk, hl, he⟩ := h.leads hp hlinks (t.start_location p) hsight
  rw [resolve_of_leads hl (Nat.le_trans hk (by decide)) hq, he]

end

end Flowchart.FileTree

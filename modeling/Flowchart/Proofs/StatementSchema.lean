import Flowchart.Proofs.Grammar
import Flowchart.Proofs.Json
import Flowchart.Schema.Statement
import Mathlib.Data.List.Forall2

/-!
# The schema of statements

An object is a statement if every place that the schema looks at is fine by
itself: its name, its line number, and of every parameter the kind, the value
and the line number. Otherwise each place that is not has one fault, in this
order. Keys beyond the fields change nothing, and a statement that is written
as data is read back as it was. A key of a parameter must not have a surrogate:
a parameter with such a key has this fault only.
-/

namespace Flowchart

open Value

/-- A token written out. -/
def TokenData.dump (t : TokenData) : Value :=
  object [("kind", .str t.kind.text), ("value", .str t.value), ("line_number", .int t.line)]

/-- A statement written out. -/
def StatementData.dump (d : StatementData) : Value :=
  object [("name", .str d.name.text), ("line_number", .int d.line),
    ("parameters", .list (d.params.map TokenData.dump))]

/-- A token as data. -/
def Token.data (t : Token) : TokenData := ⟨t.kind, t.value, t.line⟩

/-- The data give the statement. -/
structure StatementData.Gives (d : StatementData) (s : Statement) : Prop where
  head : s.head = .call d.name
  line : s.line = d.line
  params : s.params.map Token.data = d.params

namespace Schema

/-! ## The places of a statement -/

/-- A place that a schema looks at, and what is wrong with it by itself. -/
structure Spot where
  place : List Step
  problem? : Option Problem

def Spot.fault? (p : Spot) : Option Fault := p.problem?.map (⟨p.place, ·⟩)

def Spot.under (s : Step) (p : Spot) : Spot := { p with place := s :: p.place }

/-- What is wrong with a field: it is missing, or its value does not pass the check of the field. -/
def fieldProblem? {α : Type} (entries : List (Value × Value)) (key : RawText)
    (check : Value → Except Problem α) : Option Problem :=
  match lookup? entries key with
  | none => some .missing
  | some v =>
    match check v with
    | .ok _ => none
    | .error p => some p

/-- The places of the parameter at `place`. With a surrogate in one of its keys, the parameter is
looked at as a whole. -/
def tokenSpots (place : List Step) : Value → List Spot
  | .map entries =>
    if entries.any fun e => isBrokenKey e.1 then [⟨place, some .textNotUnicode⟩]
    else
      [⟨place ++ [.key "kind"], fieldProblem? entries "kind" (asChoice Kind.all Kind.text)⟩,
        ⟨place ++ [.key "value"], fieldProblem? entries "value" asText⟩,
        ⟨place ++ [.key "line_number"], fieldProblem? entries "line_number" asInt⟩]
  | _ => [⟨place, some (.notRecord "Token")⟩]

/-- The places of the parameters, which may be missing. -/
def parameterSpots : Option Value → List Spot
  | none => []
  | some (.list vs) => vs.zipIdx.flatMap fun x => tokenSpots [.key "parameters", .index x.2] x.1
  | some _ => [⟨[.key "parameters"], some .notList⟩]

/-- The places of a statement in order. -/
def statementSpots (entries : List (Value × Value)) : List Spot :=
  ⟨[.key "name"], fieldProblem? entries "name" (asChoice CallName.all CallName.text)⟩ ::
    ⟨[.key "line_number"], fieldProblem? entries "line_number" asInt⟩ ::
    parameterSpots (lookup? entries "parameters")

/-! ## Checks and the places they cover -/

/-- Two checks together: both results, or all faults. -/
def both {α β : Type} (a : Checked α) (b : Checked β) : Checked (α × β) :=
  match a, b with
  | .ok x, .ok y => .ok (x, y)
  | _, _ => .error (faults a ++ faults b)

/-- A check reports the problems of some places, in their order, and accepts when there are
none. -/
structure Covers {α : Type} (spots : List Spot) (c : Checked α) : Prop where
  faults_eq : faults c = spots.filterMap Spot.fault?
  accepts : faults c = [] → ∃ a, c = .ok a

section
variable {α β : Type} {spots ps qs : List Spot} {a c : Checked α} {b : Checked β}

theorem faults_both (a : Checked α) (b : Checked β) : faults (both a b) = faults a ++ faults b := by
  cases a <;> cases b <;> rfl

theorem faults_map (f : α → β) (c : Checked α) : faults (c.map f) = faults c := by
  cases c <;> rfl

theorem faults_within (s : Step) (c : Checked α) :
    faults (within s c) = (faults c).map (·.under s) := by
  cases c <;> rfl

theorem Covers.both (ha : Covers ps a) (hb : Covers qs b) : Covers (ps ++ qs) (both a b) where
  faults_eq := by rw [faults_both, ha.faults_eq, hb.faults_eq, List.filterMap_append]
  accepts hnil := by
    rw [faults_both, List.append_eq_nil_iff] at hnil
    obtain ⟨x, rfl⟩ := ha.accepts hnil.1
    obtain ⟨y, rfl⟩ := hb.accepts hnil.2
    exact ⟨(x, y), rfl⟩

theorem Covers.map (h : Covers spots c) (f : α → β) : Covers spots (c.map f) where
  faults_eq := by rw [faults_map, h.faults_eq]
  accepts hnil := by
    rw [faults_map] at hnil
    obtain ⟨x, rfl⟩ := h.accepts hnil
    exact ⟨f x, rfl⟩

theorem Covers.within (h : Covers spots c) (s : Step) :
    Covers (spots.map (·.under s)) (within s c) where
  faults_eq := by
    rw [faults_within, h.faults_eq, List.map_filterMap, List.filterMap_map]
    congr 1
    funext p
    cases hp : p.problem? <;> simp [Spot.fault?, Spot.under, Fault.under, hp]
  accepts hnil := by
    rw [faults_within, List.map_eq_nil_iff] at hnil
    obtain ⟨x, rfl⟩ := h.accepts hnil
    exact ⟨x, rfl⟩

theorem covers_required (entries : List (Value × Value)) (key : RawText)
    (check : Value → Except Problem α) :
    Covers [⟨[.key key], fieldProblem? entries key check⟩]
      (required entries key fun v => here (check v)) := by
  unfold required fieldProblem?
  cases lookup? entries key with
  | none => exact ⟨rfl, fun h => by cases h⟩
  | some v =>
    dsimp only
    cases check v with
    | ok x => exact ⟨rfl, fun _ => ⟨x, rfl⟩⟩
    | error p => exact ⟨rfl, fun h => by cases h⟩

theorem Covers.withKeys {entries : List (Value × Value)} (h : Covers spots c) :
    Covers (if entries.any fun e => isBrokenKey e.1 then [⟨[], some .textNotUnicode⟩] else spots)
      (withKeys entries c) := by
  unfold Schema.withKeys
  split
  · exact ⟨rfl, fun h => by cases h⟩
  · exact h

theorem Covers.exists_error_iff (h : Covers spots c) :
    (∃ fs, c = .error fs) ↔ ∃ p ∈ spots, p.problem?.isSome = true := by
  have hnil : faults c = [] ↔ ∀ p ∈ spots, ¬p.problem?.isSome = true := by
    rw [h.faults_eq, List.filterMap_eq_nil_iff]
    simp [Spot.fault?]
  constructor
  · rintro ⟨fs, rfl⟩
    by_contra hnone
    push Not at hnone
    obtain ⟨x, hx⟩ := h.accepts (hnil.2 (by simpa using hnone))
    cases hx
  · rintro ⟨p, hp, hsome⟩
    cases c with
    | ok x => exact (hnil.1 rfl p hp hsome).elim
    | error fs => exact ⟨fs, rfl⟩

end

/-! ## Tokens and statements -/

section
variable (entries : List (Value × Value))

/-- The checks of the fields of a token. -/
def tokenFields : Checked (Kind × RawText × Int) :=
  both (required entries "kind" fun v => here (asChoice Kind.all Kind.text v))
    (both (required entries "value" fun v => here (asText v))
      (required entries "line_number" fun v => here (asInt v)))

/-- The checks of the fields of a statement. -/
def statementFields : Checked (CallName × Int × List TokenData) :=
  both (required entries "name" fun v => here (asChoice CallName.all CallName.text v))
    (both (required entries "line_number" fun v => here (asInt v)) (parametersOfEntries entries))

theorem tokenOfEntries_eq (ms : List (RawText × Value)) : tokenOfEntries (entriesOf ms) =
    withKeys (entriesOf ms)
      ((tokenFields (entriesOf ms)).map fun f => ⟨f.1, f.2.1, f.2.2⟩) := by
  have hstray : keyFaults (fun _ => true) (entriesOf ms) = [] := by
    rw [keyFaults_entriesOf]
    simp
  simp only [tokenOfEntries, tokenFields, hstray]
  cases required (entriesOf ms) "kind" fun v => here (asChoice Kind.all Kind.text v) <;>
    cases required (entriesOf ms) "value" fun v => here (asText v) <;>
    cases required (entriesOf ms) "line_number" fun v => here (asInt v) <;>
    simp [both, faults, Except.map]

theorem statementOfValue_eq :
    statementOfValue (.map entries) =
      (statementFields entries).map fun f => ⟨f.1, f.2.1, f.2.2⟩ := by
  simp only [statementOfValue, statementFields]
  cases required entries "name" fun v => here (asChoice CallName.all CallName.text v) <;>
    cases required entries "line_number" fun v => here (asInt v) <;>
    cases parametersOfEntries entries <;>
    simp [both, faults, Except.map]

end

theorem tokensFrom_cons (i : Nat) (v : Value) (vs : List Value) :
    tokensFrom i (v :: vs) =
      (both (within (.index i) (tokenOfValue v)) (tokensFrom (i + 1) vs)).map
        fun f => f.1 :: f.2 := by
  simp only [tokensFrom]
  cases within (.index i) (tokenOfValue v) <;> cases tokensFrom (i + 1) vs <;> rfl

theorem tokenSpots_under (s : Step) (place : List Step) (v : Value) :
    (tokenSpots place v).map (·.under s) = tokenSpots (s :: place) v := by
  cases v with
  | map entries =>
    simp only [tokenSpots]
    split <;> rfl
  | _ => rfl

theorem covers_tokenOfValue {v : Value} (hv : v.IsJson) :
    Covers (tokenSpots [] v) (tokenOfValue v) := by
  cases hv with
  | object ms heq =>
    subst heq
    have hfields := (covers_required (entriesOf ms) "kind" (asChoice Kind.all Kind.text)).both
      ((covers_required (entriesOf ms) "value" asText).both
        (covers_required (entriesOf ms) "line_number" asInt))
    show Covers _ (tokenOfEntries (entriesOf ms))
    rw [tokenOfEntries_eq]
    exact (hfields.map _).withKeys
  | _ => exact ⟨rfl, fun h => by cases h⟩

/-- Elements are checked one by one, from an index on. -/
theorem covers_tokensFrom (i : Nat) {vs : List Value} (hvs : ∀ v ∈ vs, v.IsJson) :
    Covers ((vs.zipIdx i).flatMap fun x => tokenSpots [.index x.2] x.1) (tokensFrom i vs) := by
  induction vs generalizing i with
  | nil => exact ⟨rfl, fun _ => ⟨[], rfl⟩⟩
  | cons v vs ih =>
    obtain ⟨hv, hvs⟩ := List.forall_mem_cons.1 hvs
    have hfirst := (covers_tokenOfValue hv).within (.index i)
    rw [tokenSpots_under] at hfirst
    rw [List.zipIdx_cons, List.flatMap_cons, tokensFrom_cons]
    exact (hfirst.both (ih (i + 1) hvs)).map _

section
variable {ms : List (RawText × Value)}

theorem covers_parametersOfEntries (hjson : (object ms).IsJson) :
    Covers (parameterSpots (lookup? (entriesOf ms) "parameters"))
      (parametersOfEntries (entriesOf ms)) := by
  obtain ⟨hkeys, hvalues⟩ := isJson_object_iff.1 hjson
  unfold parametersOfEntries
  cases hv : lookup? (entriesOf ms) "parameters" with
  | none => exact ⟨rfl, fun _ => ⟨[], rfl⟩⟩
  | some v =>
    have hjson := hvalues _ ((lookup?_eq_some_iff hkeys).1 hv)
    cases hjson with
    | list hvs =>
      have hlist := (covers_tokensFrom 0 hvs).within (.key "parameters")
      simp only [List.map_flatMap, tokenSpots_under] at hlist
      exact hlist
    | _ => exact ⟨rfl, fun h => by cases h⟩

theorem covers_statementOfValue (hjson : (object ms).IsJson) :
    Covers (statementSpots (entriesOf ms)) (statementOfValue (object ms)) := by
  have hfields :=
    (covers_required (entriesOf ms) "name" (asChoice CallName.all CallName.text)).both
      ((covers_required (entriesOf ms) "line_number" asInt).both
        (covers_parametersOfEntries hjson))
  rw [object, statementOfValue_eq]
  exact hfields.map _

end

/-! ## No place is looked at twice -/

theorem place_of_mem_tokenSpots {place : List Step} {v : Value} {p : Spot}
    (h : p ∈ tokenSpots place v) : place <+: p.place := by
  cases v with
  | map entries =>
    rw [tokenSpots] at h
    split at h
    · obtain rfl := List.mem_singleton.1 h
      exact List.prefix_refl _
    · simp only [List.mem_cons, List.not_mem_nil, or_false] at h
      obtain rfl | rfl | rfl := h <;> exact List.prefix_append _ _
  | _ =>
    obtain rfl := List.mem_singleton.1 h
    exact List.prefix_refl _

theorem pairwise_tokenSpots (place : List Step) (v : Value) :
    (tokenSpots place v).Pairwise fun p q => p.place ≠ q.place := by
  cases v with
  | map entries =>
    rw [tokenSpots]
    split
    · exact List.pairwise_singleton _ _
    · simp
  | _ => exact List.pairwise_singleton _ _

theorem pairwise_parameterSpots (v? : Option Value) :
    (parameterSpots v?).Pairwise fun p q => p.place ≠ q.place := by
  cases v? with
  | none => exact .nil
  | some v =>
    cases v with
    | list vs =>
      refine List.pairwise_flatMap.2 ⟨fun x _ => pairwise_tokenSpots _ _, ?_⟩
      have hindices : (vs.zipIdx.map Prod.snd).Nodup := by
        rw [List.zipIdx_map_snd]
        exact List.nodup_range'
      refine (List.pairwise_map.1 hindices).imp fun {x y} hne p hp q hq hplace => hne ?_
      obtain ⟨tail, htail⟩ := place_of_mem_tokenSpots hp
      obtain ⟨tail', htail'⟩ := place_of_mem_tokenSpots hq
      rw [← hplace, ← htail] at htail'
      have hindex : (y.2 : Int) = x.2 ∧ tail' = tail := by simpa using htail'
      omega
    | _ => exact List.pairwise_singleton _ _

theorem head_of_mem_parameterSpots {v? : Option Value} {p : Spot} (h : p ∈ parameterSpots v?) :
    p.place.head? = some (.key "parameters") := by
  cases v? with
  | none => cases h
  | some v =>
    cases v with
    | list vs =>
      obtain ⟨x, -, hp⟩ := List.mem_flatMap.1 h
      obtain ⟨tail, htail⟩ := place_of_mem_tokenSpots hp
      rw [← htail]
      rfl
    | _ =>
      obtain rfl := List.mem_singleton.1 h
      rfl

theorem nodup_places (entries : List (Value × Value)) :
    ((statementSpots entries).map Spot.place).Nodup := by
  have hother {key : RawText} (hkey : key ≠ "parameters") (p : Spot)
      (hp : p ∈ parameterSpots (lookup? entries "parameters")) : [Step.key key] ≠ p.place := by
    intro hplace
    have hhead := head_of_mem_parameterSpots hp
    rw [← hplace] at hhead
    simp [hkey] at hhead
  refine List.pairwise_map.2 (List.pairwise_cons.2 ⟨fun p hp => ?_, List.pairwise_cons.2
    ⟨hother (by decide), pairwise_parameterSpots _⟩⟩)
  rcases List.mem_cons.1 hp with rfl | hp
  · simp
  · exact hother (by decide) p hp

/-! ## Keys beyond the fields -/

/-- Members with others put between them whose keys are `Beyond` the fields. The value of a member
may change as `Same` allows. -/
inductive Padded (Beyond : RawText → Prop) (Same : RawText → Value → Value → Prop) :
    List (RawText × Value) → List (RawText × Value) → Prop where
  | nil : Padded Beyond Same [] []
  | keep {k : RawText} {v v' : Value} {ms ms' : List (RawText × Value)} : Same k v v' →
      Padded Beyond Same ms ms' → Padded Beyond Same ((k, v) :: ms) ((k, v') :: ms')
  | extra {k : RawText} {v : Value} {ms ms' : List (RawText × Value)} : Beyond k →
      Padded Beyond Same ms ms' → Padded Beyond Same ms ((k, v) :: ms')

/-- A key that a parameter may have beside its fields. -/
def BeyondToken (k : RawText) : Prop :=
  k ≠ "kind" ∧ k ≠ "value" ∧ k ≠ "line_number" ∧ Text.hasSurrogate k = false

/-- A key that a statement may have beside its fields. -/
def BeyondStatement (k : RawText) : Prop := k ≠ "name" ∧ k ≠ "line_number" ∧ k ≠ "parameters"

/-- A parameter, and the same with keys added if it is an object. -/
inductive PaddedToken : Value → Value → Prop where
  | same (v : Value) : PaddedToken v v
  | object {ms ms' : List (RawText × Value)} :
      Padded BeyondToken (fun _ v v' => v = v') ms ms' → PaddedToken (object ms) (object ms')

/-- The value of a member, and the same with keys added to the parameters. -/
inductive PaddedMember : RawText → Value → Value → Prop where
  | same (k : RawText) (v : Value) : PaddedMember k v v
  | parameters {k : RawText} {vs vs' : List Value} : k = "parameters" →
      List.Forall₂ PaddedToken vs vs' → PaddedMember k (.list vs) (.list vs')

/-- The members of a statement, with keys added to it and to its parameters. -/
def PaddedStatement : List (RawText × Value) → List (RawText × Value) → Prop :=
  Padded BeyondStatement PaddedMember

section
variable {Beyond : RawText → Prop} {Same : RawText → Value → Value → Prop}
  {ms ms' : List (RawText × Value)} {k : RawText}

theorem Padded.lookup?_rel (h : Padded Beyond Same ms ms') (hk : ¬Beyond k) :
    Option.Rel (Same k) (lookup? (entriesOf ms) k) (lookup? (entriesOf ms') k) := by
  induction h with
  | nil => exact .none
  | @keep k' v v' ms ms' hsame _ ih =>
    rw [lookup?_cons, lookup?_cons]
    by_cases heq : k' = k
    · subst heq
      rw [if_pos rfl, if_pos rfl]
      exact .some hsame
    · rw [if_neg heq, if_neg heq]
      exact ih
  | @extra k' v ms ms' hbeyond _ ih =>
    have hne : k' ≠ k := fun heq => hk (heq ▸ hbeyond)
    rw [lookup?_cons, if_neg hne]
    exact ih

theorem Padded.lookup?_eq (h : Padded Beyond Same ms ms') (hk : ¬Beyond k)
    (hsame : ∀ v v', Same k v v' → v = v') :
    lookup? (entriesOf ms) k = lookup? (entriesOf ms') k := by
  have hrel := h.lookup?_rel hk
  generalize lookup? (entriesOf ms) k = x at hrel
  generalize lookup? (entriesOf ms') k = y at hrel
  cases hrel with
  | none => rfl
  | some hv => rw [hsame _ _ hv]

theorem Padded.any_eq (h : Padded Beyond Same ms ms')
    (hbeyond : ∀ k, Beyond k → Text.hasSurrogate k = false) :
    (ms.map Prod.fst).any Text.hasSurrogate = (ms'.map Prod.fst).any Text.hasSurrogate := by
  induction h with
  | nil => rfl
  | keep _ _ ih => simp only [List.map_cons, List.any_cons, ih]
  | @extra k v ms ms' hk _ ih =>
    rw [List.map_cons, List.any_cons, hbeyond k hk, Bool.false_or, ih]

theorem required_congr {α : Type} {entries entries' : List (Value × Value)}
    {check : Value → Checked α} (h : lookup? entries k = lookup? entries' k) :
    required entries k check = required entries' k check := by
  unfold required
  rw [h]

end

theorem PaddedToken.tokenOfValue_eq {v v' : Value} (h : PaddedToken v v') :
    tokenOfValue v = tokenOfValue v' := by
  cases h with
  | same => rfl
  | @object ms ms' hpad =>
    show tokenOfEntries (entriesOf ms) = tokenOfEntries (entriesOf ms')
    have hlookup {k : RawText} (hk : ¬BeyondToken k) := hpad.lookup?_eq hk fun _ _ => id
    rw [tokenOfEntries_eq, tokenOfEntries_eq, withKeys_entriesOf, withKeys_entriesOf,
      hpad.any_eq fun _ hk => hk.2.2.2, tokenFields, tokenFields,
      required_congr (hlookup fun hk => hk.1 rfl), required_congr (hlookup fun hk => hk.2.1 rfl),
      required_congr (hlookup fun hk => hk.2.2.1 rfl)]

theorem tokensFrom_congr {vs vs' : List Value} (h : List.Forall₂ PaddedToken vs vs') (i : Nat) :
    tokensFrom i vs = tokensFrom i vs' := by
  induction h generalizing i with
  | nil => rfl
  | cons hv _ ih => rw [tokensFrom_cons, tokensFrom_cons, hv.tokenOfValue_eq, ih]

section
variable {ms ms' : List (RawText × Value)}

theorem PaddedStatement.parametersOfEntries_eq (h : PaddedStatement ms ms') :
    parametersOfEntries (entriesOf ms) = parametersOfEntries (entriesOf ms') := by
  have hrel := Padded.lookup?_rel h (k := "parameters") fun hk => hk.2.2 rfl
  unfold parametersOfEntries
  generalize lookup? (entriesOf ms) (RawText.ofString "parameters") = x at hrel
  generalize lookup? (entriesOf ms') (RawText.ofString "parameters") = y at hrel
  cases hrel with
  | none => rfl
  | some hv =>
    cases hv with
    | same => rfl
    | parameters _ htokens => simp only [tokensOfValue, tokensFrom_congr htokens]

theorem PaddedMember.eq_of_ne {k : RawText} {v v' : Value} (h : PaddedMember k v v')
    (hk : k ≠ "parameters") : v = v' := by
  cases h with
  | same => rfl
  | parameters heq => exact (hk heq).elim

theorem PaddedStatement.check_eq (h : PaddedStatement ms ms') :
    statementOfValue (object ms) = statementOfValue (object ms') := by
  have hname := Padded.lookup?_eq h (k := "name") (fun hk => hk.1 rfl) fun _ _ hv =>
    hv.eq_of_ne (by decide)
  have hline := Padded.lookup?_eq h (k := "line_number") (fun hk => hk.2.1 rfl) fun _ _ hv =>
    hv.eq_of_ne (by decide)
  rw [object, object, statementOfValue_eq, statementOfValue_eq, statementFields, statementFields,
    required_congr hname, required_congr hline, h.parametersOfEntries_eq]

end

/-! ## Written and read back -/

theorem tokenOfValue_dump (t : TokenData) : tokenOfValue t.dump = .ok t := by
  obtain ⟨kind, value, line⟩ := t
  have hkind : asChoice Kind.all Kind.text (.str kind.text) = .ok kind := by cases kind <;> rfl
  show tokenOfEntries (entriesOf [("kind", .str kind.text), ("value", .str value),
    ("line_number", .int line)]) = _
  rw [tokenOfEntries_eq, withKeys_entriesOf, if_neg (by simp), tokenFields]
  show ((both (within _ (here (asChoice Kind.all Kind.text (.str kind.text)))) _).map _ :
    Checked TokenData) = _
  rw [hkind]
  rfl

theorem tokensFrom_dump (i : Nat) (ts : List TokenData) :
    tokensFrom i (ts.map TokenData.dump) = .ok ts := by
  induction ts generalizing i with
  | nil => rfl
  | cons t ts ih =>
    rw [List.map_cons, tokensFrom_cons, tokenOfValue_dump, ih]
    rfl

theorem statementOfValue_dump (d : StatementData) : statementOfValue d.dump = .ok d := by
  obtain ⟨name, line, params⟩ := d
  have hname : asChoice CallName.all CallName.text (.str name.text) = .ok name := by
    cases name <;> rfl
  rw [StatementData.dump, object, statementOfValue_eq, statementFields]
  show ((both (within _ (here (asChoice CallName.all CallName.text (.str name.text))))
    (both _ (within _ (tokensFrom 0 (params.map TokenData.dump))))).map _ :
      Checked StatementData) = _
  rw [hname, tokensFrom_dump]
  rfl

theorem isJson_tokenDump (t : TokenData) : t.dump.IsJson :=
  isJson_object_iff.2 ⟨by simp, by simp [IsJson.str, IsJson.int]⟩

theorem isJson_statementDump (d : StatementData) : d.dump.IsJson := by
  have hparams : IsJson (.list (d.params.map TokenData.dump)) := by
    refine .list fun v hv => ?_
    obtain ⟨t, -, rfl⟩ := List.mem_map.1 hv
    exact isJson_tokenDump t
  exact isJson_object_iff.2 ⟨by simp, by simp [IsJson.str, IsJson.int, hparams]⟩

end Schema

theorem Token.data_injective : Function.Injective Token.data := by
  rintro ⟨kind, value, line⟩ ⟨kind', value', line'⟩ h
  simp only [Token.data, TokenData.mk.injEq, RawText.ofString_inj] at h
  obtain ⟨rfl, rfl, rfl⟩ := h
  rfl

/-- Data give one statement at most. -/
theorem StatementData.Gives.unique {d : StatementData} {s s' : Statement} (h : d.Gives s)
    (h' : d.Gives s') : s' = s := by
  obtain ⟨head, line, params⟩ := s
  obtain ⟨head', line', params'⟩ := s'
  have hparams : params' = params :=
    Token.data_injective.list_map (h'.params.trans h.params.symm)
  have hhead : head' = head := h'.head.trans h.head.symm
  have hline : line' = line := h'.line.trans h.line.symm
  rw [hparams, hhead, hline]

namespace Schema

theorem exists_gives_of_parse {ts : List Token} {ss : List Statement} (h : parse ts = .ok ss)
    {s : Statement} (hs : s ∈ ss) : ∃ d : StatementData, d.Gives s := by
  obtain ⟨ds, -, rfl⟩ := Sentence.exists_of_parse h
  obtain ⟨c, -, rfl⟩ := List.mem_map.1 hs
  exact ⟨⟨_, _, _⟩, rfl, rfl, rfl⟩

/-- A statement as data is checked field by field. Whatever is read can be written out and read
back, and keys beyond the fields change nothing; those of a parameter must not have surrogates. An
object is refused if and only if some place is not fine by itself; each such place then has one
fault, in the order of the places. All that the parser gives can be written out and read back. -/
theorem statement_checked_field_by_field :
    (∀ v d, statementOfValue v = .ok d → d.dump.IsJson ∧ statementOfValue d.dump = .ok d) ∧
    (∀ ms ms', PaddedStatement ms ms' →
      statementOfValue (object ms') = statementOfValue (object ms)) ∧
    (∀ ms, (object ms).IsJson →
      ((∃ fs, statementOfValue (object ms) = .error fs) ↔
        ∃ p ∈ statementSpots (entriesOf ms), p.problem?.isSome = true) ∧
      (∀ fs, statementOfValue (object ms) = .error fs →
        fs = (statementSpots (entriesOf ms)).filterMap Spot.fault?) ∧
      ((statementSpots (entriesOf ms)).map Spot.place).Nodup) ∧
    ∀ ts ss, parse ts = .ok ss → ∀ s ∈ ss, ∃ d : StatementData, d.Gives s ∧
      (∀ s', d.Gives s' → s' = s) ∧ statementOfValue d.dump = .ok d := by
  refine ⟨fun v d _ => ⟨isJson_statementDump d, statementOfValue_dump d⟩,
    fun ms ms' h => h.check_eq.symm, fun ms hjson => ?_, fun ts ss h s hs => ?_⟩
  · have hcovers := covers_statementOfValue hjson
    refine ⟨hcovers.exists_error_iff, fun fs h => ?_, nodup_places _⟩
    rw [← hcovers.faults_eq, h]
    rfl
  · obtain ⟨d, hd⟩ := exists_gives_of_parse h hs
    exact ⟨d, hd, fun s' hs' => hd.unique hs', statementOfValue_dump d⟩

/-- A statement with one parameter. -/
def withParameter (ms : List (RawText × Value)) : Value :=
  object [("name", .str "Entity"), ("line_number", .int 1), ("parameters", .list [object ms])]

/-- With a surrogate for a further key a parameter is refused, though all its fields are fine. -/
theorem surrogate_key_refuses_parameter :
    let fields : List (RawText × Value) :=
      [("kind", .str "Identifier"), ("value", .str "a"), ("line_number", .int 1)]
    let more := fields ++ [([.surrogate 0], .int 0)]
    (withParameter more).IsJson ∧
      statementOfValue (withParameter fields) = .ok ⟨.entity, 1, [⟨.identifier, "a", 1⟩]⟩ ∧
      statementOfValue (withParameter more) =
        .error [⟨[.key "parameters", .index 0], .textNotUnicode⟩] := by
  intro fields more
  have hmore : (object more).IsJson :=
    isJson_object_iff.2 ⟨by decide, by simp [more, fields, IsJson.str, IsJson.int]⟩
  refine ⟨isJson_object_iff.2 ⟨by simp, ?_⟩, by decide +kernel, by decide +kernel⟩
  simp [IsJson.str, IsJson.int, IsJson.list, hmore]

end Schema

end Flowchart

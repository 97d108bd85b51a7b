import Flowchart.Schema.Coerce
import Mathlib.Algebra.Group.Nat.Defs

/-!
# JSON and truth values

The values that JSON can write are those without raw bytes, dates and sets. The
keys of an object are distinct texts; an escape may put a surrogate into a text.
Infinite numbers and not-a-number, which many readers of JSON take, are counted
in. Among these values a schema reads as a truth value: the two truth values,
the numbers zero and one, whole or floating, and twelve words in any case.
-/

namespace Flowchart

/-! ## Texts without surrogates -/

namespace Text

section
variable {s : RawText} {cs : List Char}

@[simp] theorem chars?_char (c : Char) (s : RawText) :
    chars? (.char c :: s) = (chars? s).map (c :: ·) := by
  simp only [chars?, List.mapM_cons, CodePoint.char?]
  cases List.mapM CodePoint.char? s <;> rfl

theorem chars?_codePoints (cs : List Char) : chars? (codePoints cs) = some cs := by
  induction cs with
  | nil => rfl
  | cons c cs ih => rw [codePoints, List.map_cons, chars?_char, ← codePoints, ih, Option.map_some]

theorem eq_codePoints_of_chars? (h : chars? s = some cs) : s = codePoints cs := by
  induction s generalizing cs with
  | nil => cases h; rfl
  | cons p s ih =>
    cases p with
    | surrogate i => cases h
    | char c =>
      rw [chars?_char, Option.map_eq_some_iff] at h
      obtain ⟨cs', hcs, rfl⟩ := h
      rw [ih hcs]
      rfl

theorem chars?_eq_none_iff : chars? s = none ↔ hasSurrogate s = true := by
  induction s with
  | nil => exact iff_of_false nofun nofun
  | cons p s ih =>
    cases p with
    | surrogate i => exact iff_of_true rfl rfl
    | char c =>
      rw [chars?_char, Option.map_eq_none_iff, ih]
      rfl

@[simp] theorem hasSurrogate_codePoints (cs : List Char) :
    hasSurrogate (codePoints cs) = false := by
  rw [← Bool.not_eq_true, ← chars?_eq_none_iff, chars?_codePoints]
  exact nofun

@[simp] theorem hasSurrogate_ofString (s : String) : hasSurrogate (RawText.ofString s) = false :=
  hasSurrogate_codePoints s.toList

end

end Text

theorem RawText.exists_ofString {s : RawText} (h : Text.hasSurrogate s = false) :
    ∃ t : String, s = t := by
  cases hs : Text.chars? s with
  | none => rw [Text.chars?_eq_none_iff.1 hs] at h; cases h
  | some cs =>
    refine ⟨String.ofList cs, ?_⟩
    rw [Text.eq_codePoints_of_chars? hs, ofString, String.toList_ofList]

@[simp] theorem RawText.ofString_inj {s t : String} :
    RawText.ofString s = RawText.ofString t ↔ s = t := by
  refine ⟨fun h => ?_, fun h => h ▸ rfl⟩
  have hchars := congrArg Text.chars? h
  rw [ofString, ofString, Text.chars?_codePoints, Text.chars?_codePoints] at hchars
  exact String.toList_inj.1 (Option.some.inj hchars)

namespace Value

/-- The entries of an object with the given members. -/
def entriesOf (members : List (RawText × Value)) : List (Value × Value) :=
  members.map fun m => (.str m.1, m.2)

def object (members : List (RawText × Value)) : Value := .map (entriesOf members)

/-- The values that JSON can write. -/
inductive IsJson : Value → Prop where
  | null : IsJson .null
  | bool (b : Bool) : IsJson (.bool b)
  | int (n : Int) : IsJson (.int n)
  | float (x : Float) : IsJson (.float x)
  | str (s : RawText) : IsJson (.str s)
  | list {items : List Value} : (∀ v ∈ items, IsJson v) → IsJson (.list items)
  | object {entries : List (Value × Value)} (members : List (RawText × Value)) :
      entries = entriesOf members → (members.map Prod.fst).Nodup →
      (∀ m ∈ members, IsJson m.2) → IsJson (.map entries)

theorem isJson_object_iff {members : List (RawText × Value)} :
    (object members).IsJson ↔ (members.map Prod.fst).Nodup ∧ ∀ m ∈ members, m.2.IsJson := by
  constructor
  · intro h
    cases h with
    | object members' heq hkeys hvalues =>
      have hinj : ∀ m n : RawText × Value, (Value.str m.1, m.2) = (Value.str n.1, n.2) → m = n := by
        rintro ⟨k, v⟩ ⟨k', v'⟩ h
        cases h
        rfl
      obtain rfl := (List.map_inj_right hinj).1 heq
      exact ⟨hkeys, hvalues⟩
  · rintro ⟨hkeys, hvalues⟩
    exact .object members rfl hkeys hvalues

end Value

open Value

namespace Schema

/-! ## Members of an object -/

section
variable {members : List (RawText × Value)} {k : RawText} {v : Value}

theorem lookup?_cons (k' : RawText) (v : Value) (members : List (RawText × Value)) (k : RawText) :
    lookup? (entriesOf ((k', v) :: members)) k =
      if k' = k then some v else lookup? (entriesOf members) k := rfl

/-- No key is given twice, so a member is found under its key. -/
theorem lookup?_eq_some_iff (h : (members.map Prod.fst).Nodup) :
    lookup? (entriesOf members) k = some v ↔ (k, v) ∈ members := by
  induction members with
  | nil => exact ⟨fun h => (by cases h), fun h => (by cases h)⟩
  | cons m ms ih =>
    obtain ⟨k', v'⟩ := m
    obtain ⟨hnew, hrest⟩ := List.nodup_cons.1 h
    rw [lookup?_cons, List.mem_cons]
    by_cases hk : k' = k
    · subst hk
      have hother : (k', v) ∉ ms := fun hmem => hnew (List.mem_map.2 ⟨_, hmem, rfl⟩)
      rw [if_pos rfl]
      simp [hother, eq_comm]
    · rw [if_neg hk, ih hrest]
      simp [Ne.symm hk]

theorem lookup?_isSome_iff :
    (lookup? (entriesOf members) k).isSome = true ↔ k ∈ members.map Prod.fst := by
  induction members with
  | nil => exact ⟨fun h => (by cases h), fun h => (by cases h)⟩
  | cons m ms ih =>
    obtain ⟨k', v⟩ := m
    rw [lookup?_cons, List.map_cons, List.mem_cons, ← ih]
    by_cases hk : k' = k
    · simp [hk]
    · simp [hk, Ne.symm hk]
/-- The keys of an object are texts, so only those that are not permitted have a fault. -/
theorem keyFaults_entriesOf (permits : RawText → Bool) :
    keyFaults permits (entriesOf members) =
      ((members.map Prod.fst).filter fun k => !permits k).map fun k => ⟨[.key k], .extra⟩ := by
  induction members with
  | nil => rfl
  | cons m ms ih =>
    have hcons : keyFaults permits (entriesOf (m :: ms)) =
        if permits m.1 then keyFaults permits (entriesOf ms)
        else ⟨[.key m.1], .extra⟩ :: keyFaults permits (entriesOf ms) := rfl
    rw [hcons, ih, List.map_cons, List.filter_cons]
    cases permits m.1 <;> rfl

theorem withKeys_entriesOf {α : Type} (c : Checked α) :
    withKeys (entriesOf members) c =
      if (members.map Prod.fst).any Text.hasSurrogate then .error [⟨[], .textNotUnicode⟩]
      else c := by
  have hany : ((entriesOf members).any fun e => isBrokenKey e.1) =
      (members.map Prod.fst).any Text.hasSurrogate := by
    rw [entriesOf, List.any_map, List.any_map]
    rfl
  rw [withKeys, hany]

end

end Schema

/-! ## Zero and one as floating-point numbers -/

namespace Number

theorem float_ext {x y : Float} (h : x.toBits = y.toBits) : x = y := by
  obtain ⟨⟨bits, valid⟩⟩ := x
  obtain ⟨⟨bits', valid'⟩⟩ := y
  obtain rfl : bits = bits' := h
  rfl

namespace Exact

/-- A mantissa and an exponent make up a whole number. -/
def Equals (m : Nat) (e : Int) (k : Nat) : Prop :=
  if 0 ≤ e then k = m * 2 ^ e.toNat else m = k * 2 ^ (-e).toNat

section
variable {negative : Bool} {m k : Nat} {e n : Int}

theorem toInt?_eq_some_iff : (finite negative m e).toInt? = some n ↔
    ∃ k, Equals m e k ∧ n = if negative then -(k : Int) else k := by
  have hpos : 0 < 2 ^ (-e).toNat := Nat.two_pow_pos _
  unfold toInt? Equals
  by_cases he : 0 ≤ e
  · simp [he, eq_comm]
  · by_cases hmod : m % 2 ^ (-e).toNat = 0
    · have hexact : ∀ k, m = k * 2 ^ (-e).toNat ↔ k = m / 2 ^ (-e).toNat := by
        intro k
        constructor
        · rintro rfl
          rw [Nat.mul_div_cancel _ hpos]
        · rintro rfl
          exact (Nat.div_mul_cancel (Nat.dvd_of_mod_eq_zero hmod)).symm
      simp [he, hmod, hexact, eq_comm]
    · have hnone : ∀ k, m ≠ k * 2 ^ (-e).toNat := by
        rintro k rfl
        exact hmod (Nat.mul_mod_left ..)
      simp [he, hmod, hnone]

theorem equals_zero_iff : Equals m e 0 ↔ m = 0 := by
  have hpos : 0 < 2 ^ e.toNat := Nat.two_pow_pos _
  unfold Equals
  split
  · rw [eq_comm, Nat.mul_eq_zero]
    omega
  · rw [Nat.zero_mul]

/-- A mantissa of 53 bits makes up the number one with one exponent only. -/
theorem equals_one_iff (hlow : 2 ^ 52 ≤ m) (hhigh : m < 2 ^ 53) :
    Equals m e 1 ↔ m = 2 ^ 52 ∧ e = -52 := by
  unfold Equals
  split
  · constructor
    · intro h
      have := Nat.eq_one_of_mul_eq_one_right h.symm
      omega
    · omega
  · rw [Nat.one_mul]
    constructor
    · rintro rfl
      have hle : 52 ≤ (-e).toNat := (Nat.pow_le_pow_iff_right (by decide)).1 hlow
      have hlt : (-e).toNat < 53 := (Nat.pow_lt_pow_iff_right (by decide)).1 hhigh
      have heq : (-e).toNat = 52 := by omega
      exact ⟨by rw [heq], by omega⟩
    · rintro ⟨rfl, rfl⟩
      rfl

/-- A mantissa is too short for the number one. -/
theorem not_equals_one (hm : m < 2 ^ k) (he : e < -(k : Int)) : ¬Equals m e 1 := by
  unfold Equals
  rw [if_neg (by omega), Nat.one_mul]
  have hle : 2 ^ k ≤ 2 ^ (-e).toNat := Nat.pow_le_pow_right (by decide) (by omega)
  omega

theorem toInt?_eq_zero_iff : (finite negative m e).toInt? = some 0 ↔ m = 0 := by
  rw [toInt?_eq_some_iff, ← equals_zero_iff (e := e)]
  constructor
  · rintro ⟨k, hk, hn⟩
    obtain rfl : k = 0 := by
      split at hn <;> omega
    exact hk
  · intro h
    exact ⟨0, h, by simp⟩

theorem toInt?_eq_one_iff :
    (finite negative m e).toInt? = some 1 ↔ negative = false ∧ Equals m e 1 := by
  rw [toInt?_eq_some_iff]
  constructor
  · rintro ⟨k, hk, hn⟩
    cases negative with
    | true => rw [if_pos rfl] at hn; omega
    | false =>
      rw [if_neg Bool.false_ne_true] at hn
      obtain rfl : k = 1 := by omega
      exact ⟨rfl, hk⟩
  · rintro ⟨rfl, h⟩
    exact ⟨1, h, rfl⟩

end

/-! Of the numbers with 64 bits two are zero and one is one. -/

section
variable {bits : Nat}

theorem toInt?_ofBits_eq_zero_iff (h : bits < 2 ^ 64) :
    (ofBits bits).toInt? = some 0 ↔ bits = 0 ∨ bits = 2 ^ 63 := by
  unfold ofBits
  dsimp only [Nat.pow_eq]
  by_cases hspecial : bits / 2 ^ 52 % 2 ^ 11 = 2047
  · rw [if_pos hspecial]
    refine iff_of_false ?_ (by omega)
    split <;> exact fun h => by cases h
  · rw [if_neg hspecial]
    by_cases hsmall : bits / 2 ^ 52 % 2 ^ 11 = 0
    · rw [if_pos hsmall, toInt?_eq_zero_iff]
      omega
    · rw [if_neg hsmall, toInt?_eq_zero_iff]
      omega

theorem toInt?_ofBits_eq_one_iff (h : bits < 2 ^ 64) :
    (ofBits bits).toInt? = some 1 ↔ bits = 1023 * 2 ^ 52 := by
  unfold ofBits
  dsimp only [Nat.pow_eq]
  by_cases hspecial : bits / 2 ^ 52 % 2 ^ 11 = 2047
  · rw [if_pos hspecial]
    refine iff_of_false ?_ (by omega)
    split <;> exact fun h => by cases h
  · rw [if_neg hspecial]
    by_cases hsmall : bits / 2 ^ 52 % 2 ^ 11 = 0
    · rw [if_pos hsmall, toInt?_eq_one_iff]
      refine iff_of_false ?_ (by omega)
      rintro ⟨-, hone⟩
      -- the fraction has 52 bits and would need 1074
      exact not_equals_one (Nat.mod_lt _ (Nat.two_pow_pos 52)) (by decide) hone
    · rw [if_neg hsmall, toInt?_eq_one_iff, equals_one_iff (by omega) (by omega),
        beq_eq_false_iff_ne]
      omega

end

end Exact

end Number

namespace Schema

theorem wordOfFloat?_eq_some_iff {x : Float} {n : Int} (h : -0x8000000000000000 < n)
    (h' : n < 0x8000000000000000) :
    wordOfFloat? x = some n ↔ (Number.Exact.ofBits x.toBits.toNat).toInt? = some n := by
  unfold wordOfFloat? Number.Exact.ofFloat
  rw [Option.filter_eq_some_iff]
  simp [h, h']

theorem wordOfFloat?_eq_zero_iff {x : Float} : wordOfFloat? x = some 0 ↔ x = 0.0 ∨ x = -0.0 := by
  rw [wordOfFloat?_eq_some_iff (by decide) (by decide),
    Number.Exact.toInt?_ofBits_eq_zero_iff x.toBits.toNat_lt]
  refine or_congr ?_ ?_
  · constructor
    · intro h
      exact Number.float_ext (UInt64.toNat_inj.1 h)
    · rintro rfl
      decide
  · constructor
    · intro h
      exact Number.float_ext (UInt64.toNat_inj.1 h)
    · rintro rfl
      decide

theorem wordOfFloat?_eq_one_iff {x : Float} : wordOfFloat? x = some 1 ↔ x = 1.0 := by
  rw [wordOfFloat?_eq_some_iff (by decide) (by decide),
    Number.Exact.toInt?_ofBits_eq_one_iff x.toBits.toNat_lt]
  constructor
  · intro h
    exact Number.float_ext (UInt64.toNat_inj.1 h)
  · rintro rfl
    decide

/-! ## Truth values -/

@[simp] theorem asString_ofString (s : String) : asString s = .ok s := by
  rw [asString, RawText.ofString, Text.chars?_codePoints]
  exact congrArg _ (String.ofList_toList ..)

theorem eq_of_asString {s : RawText} {t : String} (h : asString s = .ok t) : s = t := by
  unfold asString at h
  split at h
  · rename_i hs
    cases h
    rw [Text.eq_codePoints_of_chars? hs, RawText.ofString, String.toList_ofList]
  · cases h

theorem asString_of_surrogate {s : RawText} (h : Text.hasSurrogate s = true) :
    asString s = .error .textNotUnicode := by
  rw [asString, Text.chars?_eq_none_iff.2 h]

/-- The words for a truth value. -/
def boolWords : Bool → List String
  | false => ["0", "off", "f", "false", "n", "no"]
  | true => ["1", "on", "t", "true", "y", "yes"]

/-- A value stands for a truth value. -/
inductive MeansBool : Value → Bool → Prop where
  | bool (b : Bool) : MeansBool (.bool b) b
  | zero : MeansBool (.int 0) false
  | one : MeansBool (.int 1) true
  | floatZero {x : Float} : x = 0.0 ∨ x = -0.0 → MeansBool (.float x) false
  | floatOne : MeansBool (.float 1.0) true
  | word {s w : String} {b : Bool} : w ∈ boolWords b → s.toList.map Char.toLower = w.toList →
      MeansBool (.str s) b

section
variable {v : Value} {b : Bool}

theorem boolOfInt_eq_ok_iff {n : Int} : boolOfInt n = .ok b ↔ n = if b then 1 else 0 := by
  unfold boolOfInt
  by_cases h0 : n = 0
  · rw [if_pos h0]
    cases b <;> simp [h0]
  · rw [if_neg h0]
    by_cases h1 : n = 1
    · rw [if_pos h1]
      cases b <;> simp [h1]
    · rw [if_neg h1]
      cases b <;> simp [h0, h1]

theorem boolOfWord_eq_ok_iff {s : String} :
    boolOfWord s = .ok b ↔ ∃ w ∈ boolWords b, s.toList.map Char.toLower = w.toList := by
  have hword : (∃ w ∈ boolWords b, s.toList.map Char.toLower = w.toList) ↔
      String.ofList (s.toList.map Char.toLower) ∈ boolWords b := by
    constructor
    · rintro ⟨w, hw, heq⟩
      rwa [heq, String.ofList_toList]
    · intro h
      exact ⟨_, h, by simp⟩
  rw [hword]
  generalize hw : String.ofList (s.toList.map Char.toLower) = w
  -- no word stands for both
  have hdisjoint : w ∈ boolWords true → w ∉ boolWords false := by
    intro htrue hfalse
    have hall := List.all_eq_true.1
      (show (boolWords true).all (fun w => !(boolWords false).contains w) = true by decide) w htrue
    rw [List.contains_iff_mem.2 hfalse] at hall
    cases hall
  unfold boolOfWord
  rw [hw]
  show (if (boolWords false).contains w then _ else if (boolWords true).contains w then _ else _) =
    _ ↔ _
  by_cases hfalse : w ∈ boolWords false
  · rw [if_pos (List.contains_iff_mem.2 hfalse)]
    cases b with
    | false => simp [hfalse]
    | true =>
      have htrue : w ∉ boolWords true := fun htrue => hdisjoint htrue hfalse
      simp [htrue]
  · rw [if_neg (fun h => hfalse (List.contains_iff_mem.1 h))]
    by_cases htrue : w ∈ boolWords true
    · rw [if_pos (List.contains_iff_mem.2 htrue)]
      cases b <;> simp [hfalse, htrue]
    · rw [if_neg (fun h => htrue (List.contains_iff_mem.1 h))]
      cases b <;> simp [hfalse, htrue]

theorem asBool_int (n : Int) :
    asBool (.int n) = if fitsWord n then boolOfInt n else .error .notBool := rfl

theorem asBool_float_some {x : Float} {n : Int} (h : wordOfFloat? x = some n) :
    asBool (.float x) = boolOfInt n := by
  simp only [asBool, h]

theorem asBool_float_none {x : Float} (h : wordOfFloat? x = none) :
    asBool (.float x) = .error .notBool := by
  simp only [asBool, h]

/-- A schema reads exactly the values that stand for a truth value. -/
theorem asBool_eq_ok_iff (hv : v.IsJson) : asBool v = .ok b ↔ MeansBool v b := by
  cases hv with
  | null => exact ⟨fun h => (by cases h), fun h => (by cases h)⟩
  | bool b' =>
    constructor
    · rintro ⟨⟩
      exact .bool b
    · rintro ⟨⟩
      rfl
  | int n =>
    constructor
    · intro h
      rw [asBool_int] at h
      split at h
      · obtain rfl := boolOfInt_eq_ok_iff.1 h
        cases b
        · exact .zero
        · exact .one
      · cases h
    · rintro ⟨⟩ <;> rfl
  | float x =>
    constructor
    · intro h
      cases hn : wordOfFloat? x with
      | none =>
        rw [asBool_float_none hn] at h
        cases h
      | some n =>
        rw [asBool_float_some hn] at h
        obtain rfl := boolOfInt_eq_ok_iff.1 h
        cases b
        · exact .floatZero (wordOfFloat?_eq_zero_iff.1 hn)
        · obtain rfl := wordOfFloat?_eq_one_iff.1 hn
          exact .floatOne
    · intro h
      cases h with
      | floatZero hx =>
        rw [asBool_float_some (wordOfFloat?_eq_zero_iff.2 hx)]
        rfl
      | floatOne =>
        rw [asBool_float_some (wordOfFloat?_eq_one_iff.2 rfl)]
        rfl
  | str s =>
    rw [asBool]
    constructor
    · intro h
      cases ht : asString s with
      | error p => rw [ht] at h; cases h
      | ok t =>
        rw [ht] at h
        obtain ⟨w, hw, heq⟩ := boolOfWord_eq_ok_iff.1 h
        rw [eq_of_asString ht]
        exact .word hw heq
    · intro h
      generalize hs : Value.str s = v at h
      cases h with
      | word hw heq =>
        cases hs
        rw [asString_ofString]
        exact boolOfWord_eq_ok_iff.2 ⟨_, hw, heq⟩
      | _ => cases hs
  | list => exact ⟨fun h => (by cases h), fun h => (by cases h)⟩
  | object => exact ⟨fun h => (by cases h), fun h => (by cases h)⟩

/-- What is wrong with a value that is no truth value: a text or a whole number is unclear, unless
the text has a surrogate or the number is beyond 64 bits, and anything else is of the wrong
type. -/
def boolProblem : Value → Problem
  | .str s => if Text.hasSurrogate s then .textNotUnicode else .unclearBool
  | .int n => if fitsWord n then .unclearBool else .notBool
  | .float x => if (wordOfFloat? x).isSome then .unclearBool else .notBool
  | _ => .notBool

theorem boolOfInt_eq_error {n : Int} {p : Problem} (h : boolOfInt n = .error p) :
    p = .unclearBool := by
  unfold boolOfInt at h
  split at h
  · cases h
  · split at h <;> cases h
    rfl

theorem boolOfWord_eq_error {s : String} {p : Problem} (h : boolOfWord s = .error p) :
    p = .unclearBool := by
  unfold boolOfWord at h
  dsimp only at h
  split at h
  · cases h
  · split at h <;> cases h
    rfl

theorem asBool_eq_error (hv : v.IsJson) {p : Problem} (h : asBool v = .error p) :
    p = boolProblem v := by
  cases hv with
  | bool b => cases h
  | int n =>
    rw [asBool_int] at h
    show p = if fitsWord n then _ else _
    by_cases hn : fitsWord n = true
    · rw [if_pos hn] at h ⊢
      exact boolOfInt_eq_error h
    · rw [if_neg hn] at h ⊢
      cases h
      rfl
  | float x =>
    show p = if (wordOfFloat? x).isSome then _ else _
    cases hn : wordOfFloat? x with
    | none =>
      rw [asBool_float_none hn] at h
      cases h
      rfl
    | some n =>
      rw [asBool_float_some hn] at h
      exact boolOfInt_eq_error h
  | str s =>
    rw [asBool] at h
    show p = if Text.hasSurrogate s then _ else _
    cases hs : Text.hasSurrogate s with
    | true =>
      rw [asString_of_surrogate hs] at h
      cases h
      rfl
    | false =>
      obtain ⟨t, rfl⟩ := RawText.exists_ofString hs
      rw [asString_ofString] at h
      exact boolOfWord_eq_error h
  | null => cases h; rfl
  | list => cases h; rfl
  | object => cases h; rfl

/-! ## Texts -/

theorem asText_eq_ok_iff (hv : v.IsJson) {s : RawText} : asText v = .ok s ↔ v = .str s := by
  cases hv with
  | str s' => rw [asText, Except.ok.injEq, Value.str.injEq]
  | _ => exact ⟨fun h => (by cases h), fun h => (by cases h)⟩

theorem asText_eq_error (hv : v.IsJson) {p : Problem} (h : asText v = .error p) :
    p = .notText ∧ ∀ s, v ≠ .str s := by
  cases hv with
  | str s => cases h
  | _ =>
    cases h
    exact ⟨rfl, fun s hs => by cases hs⟩

end

end Schema

end Flowchart

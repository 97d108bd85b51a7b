import Flowchart.Yaml.Stream
import Flowchart.Yaml.Tag

/-!
# Tokens of lines

A text of lines, each a word as its key and behind it a quoted text or a truth
value, is cut into the tokens of a block mapping. The key of a line is found to
be one at its colon, and the next line is reached in two ways: a quoted text
leaves the line break to the next token, a word takes it along.
-/

namespace Flowchart.Yaml

open Flowchart.Text

/-! ## Lines -/

/-- A text as it is written between single quotes: each quote in it twice. -/
def doubleQuotes (cs : List Char) : List Char :=
  cs.flatMap fun c => if c = '\'' then ['\'', '\''] else [c]

/-- A value on a line: a text in single quotes, or a truth value. -/
inductive Written where
  | quoted (text : List Char)
  | flag (b : Bool)
  deriving DecidableEq, Repr

namespace Written

def flagWord (b : Bool) : List Char := if b then ['t', 'r', 'u', 'e'] else ['f', 'a', 'l', 's', 'e']

def chars : Written → List Char
  | quoted text => '\'' :: (doubleQuotes text ++ ['\''])
  | flag b => flagWord b

/-- The text that a value stands for. -/
def content : Written → List Char
  | quoted text => text
  | flag b => flagWord b

def isPlain : Written → Bool
  | quoted _ => false
  | flag _ => true

def token (v : Written) : Token := .scalar (codePoints v.content) v.isPlain

/-- No line break stands inside the quotes. -/
def OnLine : Written → Prop
  | quoted text => ∀ c ∈ text, isBreak c = false
  | flag _ => True

theorem onLine_of_content {v : Written} (h : ∀ c ∈ v.content, isBreak c = false) : v.OnLine := by
  cases v with
  | quoted text => exact h
  | flag b => trivial

end Written

/-- Letters, digits and hyphens, the first of them a letter. -/
def isWord (cs : List Char) : Bool := cs.head?.any Char.isAlpha && cs.all isWordChar

/-- A word that is a key wherever a line starts with it: it means nothing but itself and is not
too long. -/
structure IsKeyWord (key : List Char) : Prop where
  word : isWord key = true
  text : plainTag (codePoints key) = .str
  short : key.length ≤ 1024

structure Line where
  key : List Char
  value : Written
  deriving DecidableEq, Repr

namespace Line

def chars (l : Line) : List Char := l.key ++ ':' :: ' ' :: l.value.chars

/-- A line that is read as it is written. -/
structure Proper (l : Line) : Prop extends IsKeyWord l.key where
  onLine : l.value.OnLine

end Line

/-- What stands behind a line: a line feed before each of the lines that follow, and a last one
if the text ends in one. -/
def following (final : Bool) : List Line → List Char
  | [] => if final then ['\n'] else []
  | l :: ls => '\n' :: (l.chars ++ following final ls)

/-! ## Characters of words -/

section
variable {c d : Char} {cs : List Char}

/-- A class of characters tells its members from all others. -/
theorem beq_eq_false_of_class {p : Char → Bool} (hc : p c = true) (hd : p d = false) :
    (c == d) = false := by
  refine beq_false_of_ne ?_
  rintro rfl
  rw [hc] at hd
  cases hd

theorem isBreak_of_class {p : Char → Bool}
    (hp : (['\n', '\u0085', '\u2028', '\u2029'].all fun b => !p b) = true) (hc : p c = true) :
    isBreak c = false := by
  simp only [List.all_cons, List.all_nil, Bool.and_true, Bool.and_eq_true, Bool.not_eq_true'] at hp
  obtain ⟨h₁, h₂, h₃, h₄⟩ := hp
  simp [isBreak, beq_eq_false_of_class hc h₁, beq_eq_false_of_class hc h₂,
    beq_eq_false_of_class hc h₃, beq_eq_false_of_class hc h₄]

theorem isBreak_of_isWordChar (h : isWordChar c = true) : isBreak c = false :=
  isBreak_of_class (by decide) h

theorem isWordChar_of_isWord (h : isWord cs = true) : ∀ c ∈ cs, isWordChar c = true :=
  List.all_eq_true.1 (Bool.and_eq_true_iff.1 h).2

theorem isBreak_of_isWord (h : isWord cs = true) : ∀ c ∈ cs, isBreak c = false :=
  fun c hc => isBreak_of_isWordChar (isWordChar_of_isWord h c hc)

/-- A word starts with a letter. -/
theorem exists_letter_of_isWord (h : isWord cs = true) :
    ∃ c rest, cs = c :: rest ∧ c.isAlpha = true := by
  cases cs with
  | nil => cases h
  | cons c rest => exact ⟨c, rest, rfl, (Bool.and_eq_true_iff.1 h).1⟩

theorem Written.isWord_flagWord (b : Bool) : isWord (flagWord b) = true := by
  cases b <;> decide

/-- No document mark starts with a letter. -/
theorem startsMark_of_isAlpha (hc : c.isAlpha = true) (hd : d.isAlpha = false)
    (mark : List Char) : startsMark (d :: mark) (c :: cs) = false := by
  have hdc : (d == c) = false := by rw [Bool.beq_comm, beq_eq_false_of_class hc hd]
  simp [startsMark, List.isPrefixOf, hdc]

end

/-! ## Places -/

namespace Place

variable {p : Place} {cs rest : List Char}

theorem rest_advance (p : Place) : p.advance.rest = p.rest.drop 1 := by
  unfold advance
  split
  · rename_i h
    rw [h]
    rfl
  · rename_i h
    rw [h]
    split <;> rfl

theorem rest_advanceBy (n : Nat) (p : Place) : (advanceBy n p).rest = p.rest.drop n := by
  induction n generalizing p with
  | zero => rfl
  | succ n ih => rw [advanceBy, ih, rest_advance, List.drop_drop, Nat.add_comm]

theorem moveTo_eq (cs : List Char) (h : p.rest = cs ++ rest) :
    p.moveTo rest = advanceBy cs.length p := by
  rw [moveTo, h, List.length_append, Nat.add_sub_cancel]

theorem moveTo_self (p : Place) : p.moveTo p.rest = p := moveTo_eq [] rfl

theorem rest_moveTo (cs : List Char) (h : p.rest = cs ++ rest) : (p.moveTo rest).rest = rest := by
  rw [moveTo_eq cs h, rest_advanceBy, h, List.drop_left]

theorem advance_of_not_isBreak {c : Char} (h : p.rest = c :: cs) (hc : isBreak c = false) :
    p.advance.index = p.index + 1 ∧ p.advance.line = p.line := by
  simp [advance, h, hc]

/-- A run of characters without a break lies on one line. -/
theorem moveTo_line (h : p.rest = cs ++ rest) (hcs : ∀ c ∈ cs, isBreak c = false) :
    (p.moveTo rest).index = p.index + cs.length ∧ (p.moveTo rest).line = p.line := by
  rw [moveTo_eq cs h]
  induction cs generalizing p with
  | nil => exact ⟨rfl, rfl⟩
  | cons c cs ih =>
    obtain ⟨hc, hcs⟩ := List.forall_mem_cons.1 hcs
    obtain ⟨hindex, hline⟩ := advance_of_not_isBreak h hc
    have hrest : p.advance.rest = cs ++ rest := by rw [rest_advance, h]; rfl
    obtain ⟨ihindex, ihline⟩ := ih hrest hcs
    rw [List.length_cons, advanceBy, ihindex, ihline, hindex, hline]
    exact ⟨by omega, rfl⟩

/-- Behind a break the column is the first one. -/
theorem column_moveTo {b : Char} (cs : List Char) (h : p.rest = cs ++ b :: rest)
    (hb : isBreak b = true) : (p.moveTo rest).column = 0 := by
  have happend : p.rest = (cs ++ [b]) ++ rest := by rw [h, List.append_assoc]; rfl
  rw [moveTo_eq _ happend]
  induction cs generalizing p with
  | nil => simp [advanceBy, advance, h, hb]
  | cons c cs ih =>
    have hrest : p.advance.rest = cs ++ b :: rest := by rw [rest_advance, h]; rfl
    exact ih hrest (by rw [hrest, List.append_assoc]; rfl)

end Place

/-! ## Scalars -/

section
variable {word text rest : List Char}

theorem plainRun_word (hw : ∀ c ∈ word, isWordChar c = true) (hrest : plainRun false rest = []) :
    plainRun false (word ++ rest) = word := by
  induction word with
  | nil => exact hrest
  | cons c word ih =>
    obtain ⟨hc, hw⟩ := List.forall_mem_cons.1 hw
    have hne (d : Char) (hd : isWordChar d = false) : (c == d) = false :=
      beq_eq_false_of_class hc hd
    have hgo (after : Option Char) : stopsPlain false c after = false := by
      simp [stopsPlain, endsWord, isWhite, isBreak_of_isWordChar hc, hne ' ' (by decide),
        hne '\t' (by decide), hne ':' (by decide)]
    rw [List.cons_append, plainRun, hgo, ih hw]
    rfl

/-- A word is a plain scalar if the gap behind it ends it. -/
theorem plainRuns_word {p : Place} {indent : Int} {fuel : Nat} (hw : isWord word = true)
    (hp : p.rest = word ++ rest) (hrest : plainRun false rest = [])
    (hends : (plainGap rest).fill = some [] ∨ (plainGap rest).fill ≠ none ∧
      ((p.moveTo (plainGap rest).rest).column : Int) < indent) :
    Stream.plainRuns false indent (fuel + 1) [] p false =
      (word, p.moveTo (plainGap rest).rest, (plainGap rest).broken) := by
  obtain ⟨c, cs, rfl, hc⟩ := exists_letter_of_isWord hw
  have hhead : (p.rest.head? == some '#') = false := by
    rw [hp]
    exact beq_false_of_ne fun h => by cases h; revert hc; decide
  have hrun : plainRun false p.rest = c :: cs := by
    rw [hp]
    exact plainRun_word (isWordChar_of_isWord hw) hrest
  have hdrop : p.rest.drop (c :: cs).length = rest := by rw [hp, List.drop_left]
  rw [Stream.plainRuns, hhead, hrun]
  dsimp only
  rw [hdrop]
  cases hfill : (plainGap rest).fill with
  | none => simp [hfill] at hends
  | some fill =>
    have hends : fill = [] ∨ ((p.moveTo (plainGap rest).rest).column : Int) < indent := by
      simpa [hfill] using hends
    simp [hends]

theorem doubleQuotes_cons (c : Char) (cs : List Char) :
    doubleQuotes (c :: cs) = (if c = '\'' then ['\'', '\''] else [c]) ++ doubleQuotes cs :=
  List.flatMap_cons

theorem length_le_doubleQuotes (cs : List Char) : cs.length ≤ (doubleQuotes cs).length := by
  induction cs with
  | nil => exact Nat.le_refl 0
  | cons c cs ih =>
    rw [doubleQuotes_cons, List.length_append, List.length_cons]
    split <;> simp <;> omega

theorem mem_doubleQuotes {c : Char} {cs : List Char} : c ∈ doubleQuotes cs ↔ c ∈ cs := by
  induction cs with
  | nil => rfl
  | cons d cs ih =>
    rw [doubleQuotes_cons, List.mem_append, List.mem_cons, ih]
    split <;> simp_all

theorem Written.mem_chars {v : Written} {c : Char} (h : c ∈ v.chars) :
    c ∈ v.content ∨ c = '\'' := by
  cases v with
  | quoted text =>
    rcases List.mem_cons.1 h with hquote | h
    · exact .inr hquote
    rcases List.mem_append.1 h with htext | hquote
    · exact .inl (mem_doubleQuotes.1 htext)
    · exact .inr (List.mem_singleton.1 hquote)
  | flag b => exact .inl h

theorem Line.mem_chars {l : Line} {c : Char} (h : c ∈ l.chars) :
    c ∈ l.key ∨ c ∈ l.value.content ∨ c ∈ [':', ' ', '\''] := by
  rcases List.mem_append.1 h with hkey | h
  · exact .inl hkey
  rcases List.mem_cons.1 h with rfl | h
  · exact .inr (.inr (by decide))
  rcases List.mem_cons.1 h with rfl | h
  · exact .inr (.inr (by decide))
  rcases Written.mem_chars h with hcontent | rfl
  · exact .inr (.inl hcontent)
  · exact .inr (.inr (by decide))

/-- Blanks inside quotes are followed by something that breaks no line. -/
theorem exists_dropWhile_isWhite (cs : List Char) (h : ∀ c ∈ cs, isBreak c = false)
    (rest : List Char) :
    ∃ b left, (cs ++ '\'' :: rest).dropWhile isWhite = b :: left ∧ isBreak b = false := by
  induction cs with
  | nil => exact ⟨'\'', rest, rfl, by decide⟩
  | cons c cs ih =>
    obtain ⟨hc, hcs⟩ := List.forall_mem_cons.1 h
    cases hw : isWhite c with
    | true => simpa [hw] using ih hcs
    | false => exact ⟨c, cs ++ '\'' :: rest, by simp [hw], hc⟩

theorem readSingle_doubleQuotes (ht : ∀ c ∈ text, isBreak c = false)
    (hrest : rest.head? ≠ some '\'') {fuel : Nat} (hfuel : text.length < fuel) :
    readSingle fuel (doubleQuotes text ++ '\'' :: rest) = .ok (text, rest) := by
  induction text generalizing fuel with
  | nil =>
    obtain ⟨fuel, rfl⟩ := Nat.exists_eq_add_of_lt hfuel
    cases rest with
    | nil => rfl
    | cons c rest =>
      have hc : c ≠ '\'' := by simpa using hrest
      simp [doubleQuotes, readSingle, hc]
  | cons c text ih =>
    obtain ⟨fuel, rfl⟩ := Nat.exists_eq_succ_of_ne_zero (Nat.ne_of_gt (Nat.zero_lt_of_lt hfuel))
    have ih := ih (fun d hd => ht d (List.mem_cons_of_mem c hd)) (Nat.lt_of_succ_lt_succ hfuel)
    by_cases hc : c = '\''
    · subst hc
      simp [doubleQuotes_cons, readSingle, ih, Except.map]
    · -- blanks would be dropped only before a break
      obtain ⟨b, left, hdrop, hb⟩ := exists_dropWhile_isWhite
        (doubleQuotes (c :: text)) (fun d hd => ht d (mem_doubleQuotes.1 hd)) rest
      rw [doubleQuotes_cons, if_neg hc, List.singleton_append, List.cons_append] at hdrop ⊢
      unfold readSingle
      simp [hc, hdrop, hb, ih, Except.map]

end

/-! ## Single tokens -/

/-- The characters that a token may start with, wherever it stands. -/
def isInk (c : Char) : Bool := !(isBreak c || c == ' ' || c == '#' || c == byteOrderMark)

namespace Stream

/-- A stream in block context: at the top, or inside of one mapping at the margin. -/
def block (inside keyAllowed : Bool) (p : Place) (tokens : List Token) (taken length : Nat) :
    Stream :=
  { place := p, indent := if inside then 0 else -1, indents := if inside then [-1] else [],
    keyAllowed, tokens, taken, length }

section
variable {s : Stream} {c : Char} {cs rest : List Char}

theorem skipGap_ink (h : isInk c = true) : skipGap false (c :: cs) = (false, c :: cs) := by
  simp only [isInk, Bool.not_eq_true', Bool.or_eq_false_iff] at h
  obtain ⟨⟨⟨hbreak, hspace⟩, hcomment⟩, -⟩ := h
  simp [skipGap, hbreak, hspace, hcomment]

theorem toNextToken_of_ne (h : s.place.rest.head? ≠ some byteOrderMark) :
    s.toNextToken =
      { s.moveTo (skipGap false s.place.rest).2 with
        keyAllowed := s.keyAllowed || ((skipGap false s.place.rest).1 && !s.inFlow) } := by
  have hmark : (s.place.rest.head? == some byteOrderMark) = false := beq_false_of_ne h
  simp [toNextToken, hmark]

theorem toNextToken_ink (hrest : s.place.rest = c :: cs) (h : isInk c = true) :
    s.toNextToken = s := by
  have hne : s.place.rest.head? ≠ some byteOrderMark := by
    rw [hrest]
    rintro ⟨⟩
    revert h
    decide
  have hmove : s.moveTo s.place.rest = s := by rw [moveTo, Place.moveTo_self]
  have hgap : skipGap false s.place.rest = (false, s.place.rest) := by
    rw [hrest, skipGap_ink h]
  rw [toNextToken_of_ne hne, hgap, hmove]
  simp

theorem unwind_eq_self {column : Int} (h : s.indent ≤ column) : s.unwind column = s := by
  have hfrom : unwindFrom column s.indent 0 s.indents = (s.indent, s.indents, 0) := by
    cases s.indents with
    | nil => rw [unwindFrom, if_neg (Int.not_lt.2 h)]
    | cons i is => rw [unwindFrom, if_neg (Int.not_lt.2 h)]
  unfold unwind
  split
  · rfl
  · simp [hfrom]

theorem unwind_column (h : s.indent ≤ 0) : s.unwind s.place.column = s :=
  unwind_eq_self (Int.le_trans h (Int.natCast_nonneg _))

/-- Reading on from the next character that is not skipped. -/
theorem more_of_toNextToken {s' : Stream} (hnext : s.toNextToken = s')
    (hkeys : s'.dropStaleKeys = .ok s') (hindent : s'.indent ≤ 0)
    (hrest : s'.place.rest = c :: cs) : s.more = s'.token c := by
  rw [more, hnext, hkeys]
  simp only [bind, Except.bind, unwind_column hindent, hrest]

theorem dropStaleKeys_of_keys (h : s.keys = []) : s.dropStaleKeys = .ok s := by
  cases s
  subst h
  rfl

/-- At the end of the text all collections are closed. -/
theorem more_of_toNextToken_end {s' : Stream} (hnext : s.toNextToken = s')
    (hkeys : s'.keys = []) (hindent : s'.indent ≤ 0) (hrest : s'.place.rest = []) :
    s.more = .ok { s'.unwind (-1) with keyAllowed := false, keys := [], ended := true } := by
  have hdrop : (s'.unwind (-1)).dropKey = .ok (s'.unwind (-1)) := by
    have hnone : (s'.unwind (-1)).keys = [] := by
      unfold unwind
      split <;> exact hkeys
    rw [dropKey, hnone]
    rfl
  rw [more, hnext, dropStaleKeys_of_keys hkeys]
  simp only [bind, Except.bind, unwind_column hindent, hrest, hdrop]
  rfl

theorem isIndicator_of_isAlpha (h : c.isAlpha = true) : isIndicator c = false := by
  have hall : ("-?:,[]\x7b\x7d#&*!|>'\"%@`".toList.all fun d => !d.isAlpha) = true := by decide
  rw [isIndicator, List.contains_eq_mem, decide_eq_false_iff_not]
  intro hmem
  have hnot := List.all_eq_true.1 hall c hmem
  rw [h] at hnot
  cases hnot

theorem token_letter (hrest : s.place.rest = c :: cs) (hc : c.isAlpha = true) :
    s.token c = s.plain := by
  have hne (d : Char) (hd : d.isAlpha = false) : (c == d) = false := beq_eq_false_of_class hc hd
  have hword : isWordChar c = true := by simp [isWordChar, Char.isAlphanum, hc]
  have hplain (after : Option Char) : startsPlain s.inFlow c after = true := by
    simp [startsPlain, endsWord, isWhite, isBreak_of_isWordChar hword, isIndicator_of_isAlpha hc,
      hne ' ' (by decide), hne '\t' (by decide)]
  unfold token
  simp [hrest, documentStart, documentEnd, startsMark_of_isAlpha hc, hplain, hne]

theorem token_colon (hrest : s.place.rest = ':' :: ' ' :: cs) : s.token ':' = s.value := by
  unfold token
  simp [hrest, startsMark, documentStart, documentEnd, endsWord, isWhite]

theorem token_quote (hrest : s.place.rest = '\'' :: cs) :
    s.token '\'' = s.nodeToken (fun cs => readSingle (cs.length + 1) cs)
      fun t => .scalar (codePoints t) false := by
  unfold token
  simp [hrest, startsMark, documentStart, documentEnd]

end

/-! ## Settled streams -/

section
variable {s s' : Stream} {fuel : Nat}

theorem toNextToken_eq (s : Stream) :
    ∃ p keyAllowed, s.toNextToken = { s with place := p, keyAllowed } := by
  unfold toNextToken
  split
  · exact ⟨_, _, rfl⟩
  · exact ⟨_, _, rfl⟩

/-- A stream without tokens reads on. -/
theorem settle_of_toNextToken (hnext : s.toNextToken = s') (htokens : s'.tokens = [])
    (hended : s'.ended = false) : s.settle = s.more >>= settleWithin s'.length := by
  obtain ⟨p, keyAllowed, hs⟩ := toNextToken_eq s
  obtain rfl := hs.symm.trans hnext
  rw [settle, settleWithin]
  simp only [show s.ended = false from hended, show s.tokens = [] from htokens, List.isEmpty_nil,
    Bool.false_eq_true, if_false, if_true]

theorem settleWithin_ended (h : s.ended = true) : settleWithin fuel s = .ok s := by
  cases fuel with
  | zero => rfl
  | succ fuel => rw [settleWithin, if_pos h]

/-- A token that no colon can turn into a key is certain. -/
theorem settleWithin_certain (htokens : s.tokens ≠ []) (hkeys : s.keys = []) :
    settleWithin fuel s = .ok s := by
  cases fuel with
  | zero => rfl
  | succ fuel =>
    rw [settleWithin, dropStaleKeys_of_keys hkeys]
    split
    · rfl
    · simp [htokens, hkeys, bind, Except.bind]

/-- The next token is there and certain. -/
structure Stands (s : Stream) (t : Token) : Prop where
  settle : s.settle = .ok s
  head : s.tokens.head? = some t

theorem stands_block {inside keyAllowed : Bool} {p : Place} {t : Token} {tokens : List Token}
    {taken length : Nat} : Stands (block inside keyAllowed p (t :: tokens) taken length) t :=
  ⟨settleWithin_certain (List.cons_ne_nil t tokens) rfl, rfl⟩

end

/-! ## Keys -/

/-- The tokens of a key and its colon. The first key opens the mapping. -/
def keyTokens (inside : Bool) (key : List Char) : List Token :=
  (if inside then [] else [.blockMappingStart]) ++ [.key, .scalar (codePoints key) true, .value]

/-- Behind a word that may be a key. -/
def keyed (inside : Bool) (key : List Char) (p : Place) (index taken length : Nat) : Stream :=
  { block inside false p [.scalar (codePoints key) true] taken length with
    keys := [(0, ⟨taken, inside, index, p.line, 0⟩)] }

section
variable {inside : Bool} {key rest : List Char} {p : Place} {index taken length : Nat}

theorem plain_key (hkey : isWord key = true) (hp : p.rest = key ++ ':' :: ' ' :: rest)
    (hcolumn : p.column = 0) :
    (block inside true p [] taken length).plain =
      .ok (keyed inside key (p.moveTo (':' :: ' ' :: rest)) p.index taken length) := by
  have hgap : plainGap (':' :: ' ' :: rest) = ⟨some [], ':' :: ' ' :: rest, false⟩ := rfl
  have hruns (indent : Int) (fuel : Nat) :
      plainRuns false indent (fuel + 1) [] p false =
        (key, p.moveTo (':' :: ' ' :: rest), false) := by
    rw [plainRuns_word hkey hp rfl (.inl (by rw [hgap])), hgap]
  have hline := (Place.moveTo_line hp (isBreak_of_isWord hkey)).2
  cases inside <;>
    simp [plain, saveKey, dropKey, block, inFlow, hruns, keyed, emit, hcolumn, hline, bind,
      Except.bind, pure, Except.pure]

/-- At its colon the word is found to be a key. -/
theorem value_keyed : (keyed inside key p index taken length).value =
    .ok (block true false p.advance (keyTokens inside key) taken length) := by
  cases inside <;>
    simp [value, keyed, block, keyTokens, insertAt, inFlow, openBlock, skip, emit, Place.advanceBy,
      pure, Except.pure]

theorem dropStaleKeys_keyed (h : p.index ≤ index + 1024) :
    (keyed inside key p index taken length).dropStaleKeys =
      .ok (keyed inside key p index taken length) := by
  have hold : ¬index + 1024 < p.index := Nat.not_lt.2 h
  simp [dropStaleKeys, keyed, block, hold]

theorem indent_le {s : Stream} (h : s.indent = if inside then 0 else -1) : s.indent ≤ 0 := by
  rw [h]
  split <;> decide

/-- A word is not certain before its colon is read. -/
theorem settleWithin_keyed {fuel : Nat} (h : p.index ≤ index + 1024)
    (hrest : p.rest = ':' :: ' ' :: rest) :
    settleWithin (fuel + 1) (keyed inside key p index taken length) =
      (keyed inside key p index taken length).value >>= settleWithin fuel := by
  have hmore : (keyed inside key p index taken length).more =
      (keyed inside key p index taken length).value := by
    rw [more_of_toNextToken (toNextToken_ink hrest (by decide)) (dropStaleKeys_keyed h)
      (indent_le rfl) hrest]
    exact token_colon hrest
  rw [settleWithin, dropStaleKeys_keyed h, ← hmore]
  simp [keyed, block, bind, Except.bind]

/-- The tokens of the key of a line. -/
theorem settle_line {s : Stream} {l : Line} (hl : l.Proper) (hlength : 1 ≤ length)
    (hnext : s.toNextToken = block inside true p [] taken length)
    (hp : p.rest = l.chars ++ rest) (hcolumn : p.column = 0) :
    ∃ q, q.rest = ' ' :: (l.value.chars ++ rest) ∧
      s.settle = .ok (block true false q (keyTokens inside l.key) taken length) := by
  have hkey : p.rest = l.key ++ ':' :: ' ' :: (l.value.chars ++ rest) := by
    rw [hp, Line.chars, List.append_assoc]
    rfl
  obtain ⟨c, cs, hword, hc⟩ := exists_letter_of_isWord hl.word
  have hfirst : p.rest = c :: (cs ++ ':' :: ' ' :: (l.value.chars ++ rest)) := by
    rw [hkey, hword]
    rfl
  have hindex := (Place.moveTo_line hkey (isBreak_of_isWord hl.word)).1
  have hcolon := Place.rest_moveTo l.key hkey
  obtain ⟨length, rfl⟩ := Nat.exists_eq_add_of_le' hlength
  refine ⟨(p.moveTo (':' :: ' ' :: (l.value.chars ++ rest))).advance, ?_, ?_⟩
  · rw [Place.rest_advance, hcolon]
    rfl
  -- the word may be a key, the colon makes it one, and then the tokens are certain
  rw [settle_of_toNextToken hnext rfl rfl, more_of_toNextToken hnext rfl (indent_le rfl) hfirst,
    token_letter hfirst hc, plain_key hl.word hkey hcolumn]
  show settleWithin (length + 1) (keyed ..) = _
  rw [settleWithin_keyed (hindex ▸ Nat.add_le_add_left hl.short p.index) hcolon, value_keyed]
  exact settleWithin_certain (by simp [block, keyTokens]) rfl

end

/-! ## Values -/

/-- Behind the value of a line and before `rest`: a quoted text is left before the line feed, a
word behind it. -/
inductive Behind (rest : List Char) (tokens : List Token) (taken length : Nat) : Stream → Prop
  | value (p : Place) : p.rest = rest →
      Behind rest tokens taken length (block true false p tokens taken length)
  | margin (p : Place) : rest = '\n' :: p.rest → p.column = 0 →
      Behind rest tokens taken length (block true true p tokens taken length)

/-- Nothing follows a line, or a line feed and then nothing or a letter. -/
def Follows (rest : List Char) : Prop :=
  rest = [] ∨ ∃ cs, rest = '\n' :: cs ∧ ∀ c ∈ cs.head?, c.isAlpha = true

section
variable {s : Stream} {rest : List Char} {tokens : List Token} {p : Place} {taken length : Nat}

theorem Behind.take {t : Token} (h : Behind rest (t :: tokens) taken length s) :
    Behind rest tokens (taken + 1) length s.take := by
  cases h with
  | value p hp => exact .value p hp
  | margin p hp hcolumn => exact .margin p hp hcolumn

theorem Behind.settleWithin_eq {fuel : Nat} (h : Behind rest tokens taken length s)
    (htokens : tokens ≠ []) : settleWithin fuel s = .ok s := by
  cases h with
  | value p hp => exact settleWithin_certain htokens rfl
  | margin p hp hcolumn => exact settleWithin_certain htokens rfl

theorem Behind.stands {t : Token} (h : Behind rest (t :: tokens) taken length s) : Stands s t := by
  cases h with
  | value p hp => exact stands_block
  | margin p hp hcolumn => exact stands_block

theorem isInk_of_isAlpha {c : Char} (h : c.isAlpha = true) : isInk c = true := by
  have hne (d : Char) (hd : d.isAlpha = false) : (c == d) = false := beq_eq_false_of_class h hd
  simp [isInk, isBreak, byteOrderMark, hne]

/-- A line feed and the token behind it: the margin, where a key may stand. -/
theorem toNextToken_lineFeed {cs : List Char} (hp : p.rest = '\n' :: cs)
    (hgap : skipGap false cs = (false, cs)) :
    (block true false p tokens taken length).toNextToken =
      block true true (p.moveTo cs) tokens taken length := by
  have hskip : skipGap false p.rest = (true, cs) := by
    rw [hp, skipGap, hgap]
    rfl
  rw [toNextToken_of_ne (by simp [block, hp, byteOrderMark])]
  simp [block, hskip, moveTo, inFlow]

/-- The next line starts at the margin, and a key may stand there. -/
theorem Behind.toNextToken_line {c : Char} {cs : List Char}
    (h : Behind ('\n' :: c :: cs) tokens taken length s) (hc : c.isAlpha = true) :
    ∃ p, p.rest = c :: cs ∧ p.column = 0 ∧
      s.toNextToken = block true true p tokens taken length := by
  have hink := isInk_of_isAlpha hc
  cases h with
  | value p hp =>
    refine ⟨p.moveTo (c :: cs), Place.rest_moveTo ['\n'] hp, ?_, ?_⟩
    · exact Place.column_moveTo [] hp (by decide)
    · exact toNextToken_lineFeed hp (skipGap_ink hink)
  | margin p hp hcolumn =>
    have hrest : p.rest = c :: cs := (List.cons.inj hp).2.symm
    exact ⟨p, hrest, hcolumn, toNextToken_ink hrest hink⟩

/-- The tokens of the key of the next line. -/
theorem Behind.settle_line {l : Line} (h : Behind ('\n' :: (l.chars ++ rest)) [] taken length s)
    (hl : l.Proper) (hlength : 1 ≤ length) :
    ∃ p, p.rest = ' ' :: (l.value.chars ++ rest) ∧
      s.settle = .ok (block true false p (keyTokens true l.key) taken length) := by
  obtain ⟨c, cs, hkey, hc⟩ := exists_letter_of_isWord hl.word
  have hchars : l.chars ++ rest = c :: (cs ++ ':' :: ' ' :: l.value.chars ++ rest) := by
    rw [Line.chars, hkey]
    rfl
  rw [hchars] at h
  obtain ⟨p, hp, hcolumn, hnext⟩ := h.toNextToken_line hc
  exact Stream.settle_line hl hlength hnext (hp.trans hchars.symm) hcolumn

theorem toNextToken_end {keyAllowed : Bool} (hp : p.rest = []) :
    (block true keyAllowed p tokens taken length).toNextToken =
      block true keyAllowed p tokens taken length := by
  have hmove : p.moveTo [] = p := hp ▸ Place.moveTo_self p
  rw [toNextToken_of_ne (by simp [block, hp])]
  simp [block, hp, skipGap, moveTo, hmove]

theorem Behind.toNextToken_end (h : Behind rest tokens taken length s)
    (hrest : rest = [] ∨ rest = ['\n']) :
    ∃ keyAllowed p, p.rest = [] ∧ s.toNextToken = block true keyAllowed p tokens taken length := by
  cases h with
  | value p hp =>
    rcases hrest with rfl | rfl
    · exact ⟨false, p, hp, Stream.toNextToken_end hp⟩
    · exact ⟨true, p.moveTo [], Place.rest_moveTo ['\n'] hp, toNextToken_lineFeed hp rfl⟩
  | margin p hp hcolumn =>
    have hp : p.rest = [] := by simpa [hp] using hrest
    exact ⟨true, p, hp, Stream.toNextToken_end hp⟩

/-- Behind the last line the mapping is closed. -/
theorem Behind.settle_end (h : Behind rest [] taken length s) (hrest : rest = [] ∨ rest = ['\n']) :
    ∃ s', s'.ended = true ∧ s'.tokens = [.blockEnd] ∧ s.settle = .ok s' := by
  obtain ⟨keyAllowed, p, hp, hnext⟩ := h.toNextToken_end hrest
  have hmore : s.more = .ok { block false false p [.blockEnd] taken length with ended := true } :=
    more_of_toNextToken_end hnext rfl (Int.le_refl 0) hp
  refine ⟨{ block false false p [.blockEnd] taken length with ended := true }, rfl, rfl, ?_⟩
  rw [settle_of_toNextToken hnext rfl rfl, hmore]
  exact settleWithin_ended rfl

/-- A value is read behind a space. -/
theorem settle_space (taken length : Nat) {c : Char} {cs : List Char}
    (hp : p.rest = ' ' :: c :: cs) (hc : isInk c = true) :
    ∃ q, q.rest = c :: cs ∧ (block true false p [] taken length).settle =
      (block true false q [] taken length).token c >>= settleWithin length := by
  have hskip : skipGap false p.rest = (false, c :: cs) := by
    rw [hp]
    exact skipGap_ink hc
  have hnext : (block true false p [] taken length).toNextToken =
      block true false (p.moveTo (c :: cs)) [] taken length := by
    rw [toNextToken_of_ne (by simp [block, hp, byteOrderMark])]
    simp [block, hskip, moveTo]
  have hq : (p.moveTo (c :: cs)).rest = c :: cs := Place.rest_moveTo [' '] hp
  refine ⟨p.moveTo (c :: cs), hq, ?_⟩
  rw [settle_of_toNextToken hnext rfl rfl, more_of_toNextToken hnext rfl (Int.le_refl 0) hq]
  rfl

/-- A quoted text is read up to its closing quote. -/
theorem nodeToken_quoted {text : List Char} (ht : ∀ c ∈ text, isBreak c = false)
    (hrest : Follows rest) (hp : p.rest = '\'' :: (doubleQuotes text ++ '\'' :: rest)) :
    (block true false p [] taken length).nodeToken (fun cs => readSingle (cs.length + 1) cs)
        (fun t => .scalar (codePoints t) false) =
      .ok (block true false (p.moveTo rest) [.scalar (codePoints text) false] taken length) := by
  have hquote : rest.head? ≠ some '\'' := by rcases hrest with rfl | ⟨cs, rfl, -⟩ <;> simp
  have hfuel : text.length < (doubleQuotes text ++ '\'' :: rest).length + 1 := by
    have := length_le_doubleQuotes text
    rw [List.length_append]
    omega
  have hread := readSingle_doubleQuotes ht hquote hfuel
  have hdrop : p.rest.drop 1 = doubleQuotes text ++ '\'' :: rest := by rw [hp]; rfl
  show Except.bind (readSingle ((p.rest.drop 1).length + 1) (p.rest.drop 1)) _ = _
  rw [hdrop, hread]
  rfl

theorem Follows.plainGap_eq (h : Follows rest) :
    rest = [] ∧ plainGap rest = ⟨some [], [], false⟩ ∨
      ∃ cs, rest = '\n' :: cs ∧ plainGap rest = ⟨some [' '], cs, true⟩ := by
  rcases h with rfl | ⟨cs, rfl, hcs⟩
  · exact .inl ⟨rfl, rfl⟩
  · refine .inr ⟨cs, rfl, ?_⟩
    cases cs with
    | nil => rfl
    | cons c cs =>
      have hc : c.isAlpha = true := hcs c rfl
      have hne (d : Char) (hd : d.isAlpha = false) : (c == d) = false :=
        beq_eq_false_of_class hc hd
      have hmark : startsDocumentMark (c :: cs) = false := by
        simp [startsDocumentMark, documentStart, documentEnd, startsMark_of_isAlpha hc]
      have hbreaks : plainBreaks (c :: cs) = (some [], c :: cs) := by
        simp [plainBreaks, isBreak, hne]
      simp [plainGap, isBreak, hmark, hbreaks, foldBreaks, normalBreak]

theorem plain_of_runs {word : List Char} {q : Place} {broken : Bool}
    (h : plainRuns false 1 (p.rest.length + 1) [] p false = (word, q, broken)) :
    (block true false p [] taken length).plain =
      .ok (block true broken q [.scalar (codePoints word) true] taken length) := by
  simp [plain, saveKey, block, inFlow, h, emit, bind, Except.bind, pure, Except.pure]

/-- A truth value is read up to the end of the text or the next line. -/
theorem plain_flag (taken length : Nat) {b : Bool} (hrest : Follows rest)
    (hp : p.rest = Written.flagWord b ++ rest) :
    ∃ s', Behind rest [.scalar (codePoints (Written.flagWord b)) true] taken length s' ∧
      (block true false p [] taken length).plain = .ok s' := by
  have hword := Written.isWord_flagWord b
  rcases hrest.plainGap_eq with ⟨rfl, hgap⟩ | ⟨cs, rfl, hgap⟩
  · refine ⟨_, .value (p.moveTo []) (Place.rest_moveTo _ hp), plain_of_runs ?_⟩
    rw [plainRuns_word hword hp rfl (.inl (by rw [hgap])), hgap]
  · -- the gap takes the line feed along, and the margin ends the word
    have hmargin : (p.moveTo cs).column = 0 := Place.column_moveTo _ hp (by decide)
    have hbehind : p.rest = (Written.flagWord b ++ ['\n']) ++ cs := by
      rw [hp, List.append_assoc]
      rfl
    have hends : (plainGap ('\n' :: cs)).fill ≠ none ∧
        ((p.moveTo (plainGap ('\n' :: cs)).rest).column : Int) < 1 := by
      rw [hgap, hmargin]
      exact ⟨Option.some_ne_none _, by decide⟩
    have hrest : '\n' :: cs = '\n' :: (p.moveTo cs).rest := by rw [Place.rest_moveTo _ hbehind]
    refine ⟨_, .margin (p.moveTo cs) hrest hmargin, plain_of_runs ?_⟩
    rw [plainRuns_word hword hp rfl (.inr hends), hgap]

theorem settle_value (taken length : Nat) {v : Written} (hv : v.OnLine) (hrest : Follows rest)
    (hp : p.rest = ' ' :: (v.chars ++ rest)) :
    ∃ s', Behind rest [v.token] taken length s' ∧
      (block true false p [] taken length).settle = .ok s' := by
  cases v with
  | quoted text =>
    have hp : p.rest = ' ' :: '\'' :: (doubleQuotes text ++ '\'' :: rest) := by
      simpa [Written.chars] using hp
    obtain ⟨q, hq, hsettle⟩ := settle_space taken length hp (by decide)
    refine ⟨_, .value (q.moveTo rest) ?_, ?_⟩
    · exact Place.rest_moveTo ('\'' :: (doubleQuotes text ++ ['\''])) (by simp [hq])
    rw [hsettle, token_quote hq, nodeToken_quoted hv hrest hq]
    exact settleWithin_certain (List.cons_ne_nil _ _) rfl
  | flag b =>
    obtain ⟨c, cs, hflag, hc⟩ := exists_letter_of_isWord (Written.isWord_flagWord b)
    have hp : p.rest = ' ' :: c :: (cs ++ rest) := by
      rw [hp, Written.chars, hflag]
      rfl
    obtain ⟨q, hq, hsettle⟩ := settle_space taken length hp (isInk_of_isAlpha hc)
    have hqflag : q.rest = Written.flagWord b ++ rest := by
      rw [hq, hflag]
      rfl
    obtain ⟨s', hbehind, hplain⟩ := plain_flag taken length hrest hqflag
    refine ⟨s', hbehind, ?_⟩
    rw [hsettle, token_letter hq hc, hplain]
    exact hbehind.settleWithin_eq (List.cons_ne_nil _ _)

end

/-! ## Lines one below the other -/

section
variable {l : Line} {ls : List Line} {final : Bool}

theorem follows_following (h : ∀ l ∈ ls, l.Proper) : Follows (following final ls) := by
  cases ls with
  | nil =>
    cases final with
    | true => exact .inr ⟨[], rfl, by simp⟩
    | false => exact .inl rfl
  | cons l ls =>
    obtain ⟨c, cs, hkey, hc⟩ := exists_letter_of_isWord (h l List.mem_cons_self).word
    refine .inr ⟨l.chars ++ following final ls, rfl, ?_⟩
    simpa [Line.chars, hkey] using hc

/-- The first key opens the mapping. -/
theorem settle_ofChars (rest : List Char) (hl : l.Proper) :
    ∃ p, p.rest = ' ' :: (l.value.chars ++ rest) ∧ (ofChars (l.chars ++ rest)).settle =
      .ok (block true false p (keyTokens false l.key) 0 (l.chars ++ rest).length) := by
  obtain ⟨c, left, hkey, hc⟩ := exists_letter_of_isWord hl.word
  have hfirst : (Place.start (l.chars ++ rest)).rest =
      c :: (left ++ ':' :: ' ' :: l.value.chars ++ rest) := by
    rw [Place.start, Line.chars, hkey]
    rfl
  have hnext : (ofChars (l.chars ++ rest)).toNextToken =
      block false true (.start (l.chars ++ rest)) [] 0 (l.chars ++ rest).length :=
    toNextToken_ink hfirst (isInk_of_isAlpha hc)
  refine settle_line hl ?_ hnext rfl rfl
  rw [Line.chars, List.length_append, List.length_append, List.length_cons]
  omega

end

end Stream

end Flowchart.Yaml

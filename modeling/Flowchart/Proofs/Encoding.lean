import Flowchart.Proofs.Agreement
import Flowchart.Proofs.Lines

/-!
# Texts in files

A file that holds the encoding of a text has the lines of that text. Decoding
gives back the characters one by one, and unifying the line ends afterwards
puts one terminator in the place of another, so that every line stays where it
is.
-/

namespace Flowchart.Text

/-! ## UTF-8 -/

section
variable {position more code low high : Nat} {b : UInt8} {bs rest : List UInt8} {c : Char}

theorem utf8Tail_step {r : Nat × List UInt8} (hlow : low ≤ b.toNat) (hhigh : b.toNat ≤ high)
    (h : utf8Tail more (code * 64 + b.toNat % 64) 0x80 0xbf bs = .ok r) :
    utf8Tail (more + 1) code low high (b :: bs) = .ok r := by
  rw [utf8Tail]
  simp only [hlow, hhigh, decide_true, Bool.and_self, if_true, h]

theorem utf8Tail_end : utf8Tail 0 code low high bs = .ok (code, bs) := by
  unfold utf8Tail; rfl

theorem utf8Char_ascii (h : b.toNat < 0x80) :
    utf8Char position b bs = .ok (Char.ofNat b.toNat, bs) := by
  rw [utf8Char, if_pos h]

theorem utf8Char_lead {bits : Nat} (h : ¬b.toNat < 0x80)
    (hlead : utf8Lead? b.toNat = some ⟨more, bits, low, high⟩)
    (htail : utf8Tail more bits low high bs = .ok (code, rest)) :
    utf8Char position b bs = .ok (Char.ofNat code, rest) := by
  rw [utf8Char, if_neg h, hlead]
  simp only [htail]

theorem utf8From_char (h : utf8Char position b bs = .ok (c, rest)) :
    utf8From position (b :: bs) =
      (utf8From (position + (bs.length + 1 - rest.length)) rest).map (c :: ·) := by
  rw [utf8From]
  split
  · rename_i hf
    rw [h] at hf; cases hf
  · rename_i hc
    rw [h] at hc; cases hc
    rfl

end

/-! The first byte of a sequence gives the leading bits of the code, and bounds for the second byte
that its next bits keep. -/

section
variable {v : Nat}

theorem utf8Lead?_two (h : 0x80 ≤ v) (h' : v < 0x800) :
    utf8Lead? (v / 64 % 32 + 0xc0) = some ⟨1, v / 64, 0x80, 0xbf⟩ := by
  have hlead : v / 64 % 32 = v / 64 := by omega
  have hlow : 0xc2 ≤ v / 64 + 0xc0 := by omega
  have hhigh : v / 64 + 0xc0 ≤ 0xdf := by omega
  rw [utf8Lead?, hlead]
  simp only [hlow, hhigh, decide_true, Bool.and_self, if_true, Nat.add_sub_cancel]

theorem utf8Lead?_three (h : 0x800 ≤ v) (h' : v < 0x10000) (hv : v < 0xd800 ∨ 0xdfff < v) :
    ∃ low high, utf8Lead? (v / 4096 % 16 + 0xe0) = some ⟨2, v / 4096, low, high⟩ ∧
      low ≤ v / 64 % 64 + 0x80 ∧ v / 64 % 64 + 0x80 ≤ high := by
  have hlead : v / 4096 % 16 = v / 4096 := by omega
  have htwo : ¬(v / 4096 + 0xe0 ≤ 0xdf) := by omega
  rw [hlead]
  unfold utf8Lead?
  simp only [htwo, decide_false, Bool.and_false, Bool.false_eq_true, if_false]
  by_cases hfirst : v / 4096 + 0xe0 = 0xe0
  · rw [if_pos hfirst]
    exact ⟨_, _, by rw [show v / 4096 = 0 by omega], by omega, by omega⟩
  · rw [if_neg hfirst]
    by_cases hlast : v / 4096 + 0xe0 = 0xed
    · rw [if_pos hlast]
      exact ⟨_, _, by rw [show v / 4096 = 0xd by omega], by omega, by omega⟩
    · have hlow : 0xe1 ≤ v / 4096 + 0xe0 := by omega
      have hhigh : v / 4096 + 0xe0 ≤ 0xef := by omega
      rw [if_neg hlast]
      simp only [hlow, hhigh, decide_true, Bool.and_self, if_true, Nat.add_sub_cancel]
      exact ⟨_, _, rfl, by omega, by omega⟩

theorem utf8Lead?_four (h : 0x10000 ≤ v) (h' : v < 0x110000) :
    ∃ low high, utf8Lead? (v / 262144 % 8 + 0xf0) = some ⟨3, v / 262144, low, high⟩ ∧
      low ≤ v / 4096 % 64 + 0x80 ∧ v / 4096 % 64 + 0x80 ≤ high := by
  have hlead : v / 262144 % 8 = v / 262144 := by omega
  have htwo : ¬(v / 262144 + 0xf0 ≤ 0xdf) := by omega
  have hthree : ¬(v / 262144 + 0xf0 ≤ 0xef) := by omega
  have hne : ¬(v / 262144 + 0xf0 = 0xe0) := by omega
  have hne' : ¬(v / 262144 + 0xf0 = 0xed) := by omega
  rw [hlead]
  unfold utf8Lead?
  simp only [htwo, hthree, hne, hne', decide_false, Bool.and_false, Bool.false_eq_true, if_false]
  by_cases hfirst : v / 262144 + 0xf0 = 0xf0
  · rw [if_pos hfirst]
    exact ⟨_, _, by rw [show v / 262144 = 0 by omega], by omega, by omega⟩
  · rw [if_neg hfirst]
    by_cases hmiddle : v / 262144 + 0xf0 ≤ 0xf3
    · have hlow : 0xf1 ≤ v / 262144 + 0xf0 := by omega
      simp only [hlow, hmiddle, decide_true, Bool.and_self, if_true, Nat.add_sub_cancel]
      exact ⟨_, _, rfl, by omega, by omega⟩
    · have hlast : v / 262144 + 0xf0 = 0xf4 := by omega
      simp only [hmiddle, decide_false, Bool.and_false, Bool.false_eq_true, if_false]
      rw [if_pos hlast]
      exact ⟨_, _, by rw [show v / 262144 = 4 by omega], by omega, by omega⟩

/-- A byte that goes on with six bits of the code. -/
theorem utf8Tail_continuation {more code low high : Nat} {bs : List UInt8} {r : Nat × List UInt8}
    (v : Nat) (hlow : low ≤ v % 64 + 0x80) (hhigh : v % 64 + 0x80 ≤ high)
    (h : utf8Tail more (code * 64 + v % 64) 0x80 0xbf bs = .ok r) :
    utf8Tail (more + 1) code low high (UInt8.ofNat (v % 64 + 0x80) :: bs) = .ok r := by
  have hb : (UInt8.ofNat (v % 64 + 0x80)).toNat = v % 64 + 0x80 :=
    UInt8.toNat_ofNat_of_lt' (show _ < 256 by omega)
  apply utf8Tail_step
  · rwa [hb]
  · rwa [hb]
  · rwa [hb, show (v % 64 + 0x80) % 64 = v % 64 by omega]

variable (position : Nat) (rest : List UInt8)

theorem utf8Char_one (h : v < 0x80) :
    utf8Char position (UInt8.ofNat v) rest = .ok (Char.ofNat v, rest) := by
  have hb : (UInt8.ofNat v).toNat = v := UInt8.toNat_ofNat_of_lt' (show _ < 256 by omega)
  rw [utf8Char_ascii (by omega), hb]

theorem utf8Char_two (h : 0x80 ≤ v) (h' : v < 0x800) :
    utf8Char position (UInt8.ofNat (v / 64 % 32 + 0xc0)) (UInt8.ofNat (v % 64 + 0x80) :: rest) =
      .ok (Char.ofNat v, rest) := by
  have hb : (UInt8.ofNat (v / 64 % 32 + 0xc0)).toNat = v / 64 % 32 + 0xc0 :=
    UInt8.toNat_ofNat_of_lt' (show _ < 256 by omega)
  apply utf8Char_lead (by omega) (by rw [hb]; exact utf8Lead?_two h h')
  apply utf8Tail_continuation v (by omega) (by omega)
  rw [show v / 64 * 64 + v % 64 = v by omega]
  exact utf8Tail_end

theorem utf8Char_three (h : 0x800 ≤ v) (h' : v < 0x10000) (hv : v < 0xd800 ∨ 0xdfff < v) :
    utf8Char position (UInt8.ofNat (v / 4096 % 16 + 0xe0))
        (UInt8.ofNat (v / 64 % 64 + 0x80) :: UInt8.ofNat (v % 64 + 0x80) :: rest) =
      .ok (Char.ofNat v, rest) := by
  have hb : (UInt8.ofNat (v / 4096 % 16 + 0xe0)).toNat = v / 4096 % 16 + 0xe0 :=
    UInt8.toNat_ofNat_of_lt' (show _ < 256 by omega)
  obtain ⟨low, high, hlead, hlow, hhigh⟩ := utf8Lead?_three h h' hv
  apply utf8Char_lead (by omega) (by rw [hb]; exact hlead)
  apply utf8Tail_continuation (v / 64) hlow hhigh
  apply utf8Tail_continuation v (by omega) (by omega)
  rw [show (v / 4096 * 64 + v / 64 % 64) * 64 + v % 64 = v by omega]
  exact utf8Tail_end

theorem utf8Char_four (h : 0x10000 ≤ v) (h' : v < 0x110000) :
    utf8Char position (UInt8.ofNat (v / 262144 % 8 + 0xf0))
        (UInt8.ofNat (v / 4096 % 64 + 0x80) :: UInt8.ofNat (v / 64 % 64 + 0x80) ::
          UInt8.ofNat (v % 64 + 0x80) :: rest) =
      .ok (Char.ofNat v, rest) := by
  have hb : (UInt8.ofNat (v / 262144 % 8 + 0xf0)).toNat = v / 262144 % 8 + 0xf0 :=
    UInt8.toNat_ofNat_of_lt' (show _ < 256 by omega)
  obtain ⟨low, high, hlead, hlow, hhigh⟩ := utf8Lead?_four h h'
  apply utf8Char_lead (by omega) (by rw [hb]; exact hlead)
  apply utf8Tail_continuation (v / 4096) hlow hhigh
  apply utf8Tail_continuation (v / 64) (by omega) (by omega)
  apply utf8Tail_continuation v (by omega) (by omega)
  rw [show ((v / 262144 * 64 + v / 4096 % 64) * 64 + v / 64 % 64) * 64 + v % 64 = v by omega]
  exact utf8Tail_end

/-- The encoding of a character is read as that character, whatever follows it. -/
theorem utf8Char_encode (c : Char) :
    ∃ b bs, String.utf8EncodeChar c = b :: bs ∧
      utf8Char position b (bs ++ rest) = .ok (c, rest) := by
  -- no character is a surrogate, so the second byte keeps the bounds of the first
  have hv : c.val.toNat < 0xd800 ∨ 0xdfff < c.val.toNat ∧ c.val.toNat < 0x110000 := c.valid
  have hc : Char.ofNat c.val.toNat = c := Char.ofNat_toNat c
  unfold String.utf8EncodeChar
  dsimp only
  generalize c.val.toNat = v at hv hc
  rw [← hc]
  by_cases h1 : v ≤ 0x7f
  · rw [if_pos h1]
    exact ⟨_, _, rfl, utf8Char_one position rest (by omega)⟩
  · rw [if_neg h1]
    by_cases h2 : v ≤ 0x7ff
    · rw [if_pos h2]
      exact ⟨_, _, rfl, utf8Char_two position rest (by omega) (by omega)⟩
    · rw [if_neg h2]
      by_cases h3 : v ≤ 0xffff
      · rw [if_pos h3]
        exact ⟨_, _, rfl, utf8Char_three position rest (by omega) (by omega) (by omega)⟩
      · rw [if_neg h3]
        exact ⟨_, _, rfl, utf8Char_four position rest (by omega) (by omega)⟩

end

/-- The bytes of an array from a position on, behind those already taken. -/
theorem toList_loop_eq (bs : ByteArray) {n i : Nat} (h : i + n = bs.size) (r : List UInt8) :
    ByteArray.toList.loop bs i r = r.reverse ++ bs.data.toList.drop i := by
  have hsize : bs.data.toList.length = bs.size := rfl
  induction n generalizing i r with
  | zero =>
    rw [ByteArray.toList.loop, if_neg (by omega), List.drop_of_length_le (by omega),
      List.append_nil]
  | succ n ih =>
    have hi : i < bs.data.size := show i < bs.size by omega
    have hget : bs.data.toList.drop i = bs.get! i :: bs.data.toList.drop (i + 1) := by
      rw [List.drop_eq_getElem_cons hi, Array.getElem_toList, ← getElem!_pos bs.data i hi]
      rfl
    rw [ByteArray.toList.loop, if_pos (by omega), ih (by omega), hget, List.reverse_cons,
      List.append_assoc]
    rfl

theorem encodeUtf8_eq (s : String) : encodeUtf8 s = s.toList.flatMap String.utf8EncodeChar := by
  rw [encodeUtf8, ByteArray.toList, toList_loop_eq _ (Nat.zero_add _), String.toUTF8_eq_toByteArray,
    ← String.utf8Encode_toList, List.utf8Encode, List.toList_data_toByteArray]
  rfl

theorem utf8From_encode (position : Nat) (cs : List Char) :
    utf8From position (cs.flatMap String.utf8EncodeChar) = .ok cs := by
  induction cs generalizing position with
  | nil => rw [List.flatMap_nil, utf8From]
  | cons c cs ih =>
    obtain ⟨b, bs, hbytes, hread⟩ :=
      utf8Char_encode position (cs.flatMap String.utf8EncodeChar) c
    rw [List.flatMap_cons, hbytes, List.cons_append, utf8From_char hread, ih]
    rfl

theorem decodeUtf8_encodeUtf8 (s : String) : decodeUtf8 (encodeUtf8 s) = .ok s.toList := by
  rw [encodeUtf8_eq]
  exact utf8From_encode 0 s.toList

/-! ## Line ends -/

theorem unifyNewlines_pair (cs : List Char) :
    unifyNewlines ('\r' :: '\n' :: cs) = '\n' :: unifyNewlines cs := rfl

theorem unifyNewlines_return {cs : List Char} (h : Uncut ['\r'] cs) :
    unifyNewlines ('\r' :: cs) = '\n' :: unifyNewlines cs := by
  cases cs with
  | nil => rfl
  | cons c cs =>
    have hc : c ≠ '\n' := by
      rintro rfl
      exact h ⟨rfl, rfl⟩
    rw [unifyNewlines]
    simpa using hc

theorem unifyNewlines_other {c : Char} (cs : List Char) (hc : c ≠ '\r') :
    unifyNewlines (c :: cs) = c :: unifyNewlines cs := by
  rw [unifyNewlines]
  · rintro rest rfl
    exact (hc rfl).elim
  · exact hc

theorem unifyNewlines_eq_self {cs : List Char} (h : ∀ c ∈ cs, c ≠ '\r') :
    unifyNewlines cs = cs := by
  induction cs with
  | nil => rfl
  | cons c cs ih =>
    obtain ⟨hc, hcs⟩ := List.forall_mem_cons.1 h
    rw [unifyNewlines_other cs hc, ih hcs]

/-- Unified line ends cut a text into the same lines. -/
theorem lines_unifyNewlines (cs : List Char) : lines (unifyNewlines cs) = lines cs := by
  have hfeed (rest : List Char) : lines ('\n' :: rest) = [] :: lines rest :=
    lines_break (by decide) (by simp [Uncut])
  induction cs using lines_induction with
  | nil => rfl
  | pair cs ih => rw [unifyNewlines_pair, hfeed, ih, lines_pair]
  | single c cs hc hu ih =>
    rw [lines_break hc hu, ← ih]
    by_cases hr : c = '\r'
    · subst hr
      rw [unifyNewlines_return hu, hfeed]
    · rw [unifyNewlines_other cs hr, lines_break hc]
      rintro ⟨hlast, -⟩
      exact hr (by simpa using hlast)
  | char c cs hc ih =>
    have hr : c ≠ '\r' := by
      rintro rfl
      cases hc
    rw [unifyNewlines_other cs hr, lines_char _ hc, lines_char _ hc, firstLine, laterLines, ih]
    rfl

end Flowchart.Text

namespace Flowchart

open Text

theorem sourceLines_unifyNewlines (cs : List Char) :
    sourceLines (String.ofList (unifyNewlines cs)) = sourceLines (String.ofList cs) := by
  simp only [sourceLines, String.toList_ofList, lines_unifyNewlines]

/-- A file that holds the encoding of a text has the lines of the text: decoding undoes encoding,
and unifying the line ends changes no line. -/
theorem readSource_of_encoded_text {t : FileTree} {p : Path} {text : String}
    (h : t.readFile p = .ok (encodeUtf8 text)) :
    decodeUtf8 (encodeUtf8 text) = .ok text.toList ∧
      sourceLines (String.ofList (unifyNewlines text.toList)) = sourceLines text ∧
      readSource t p = .ok (sourceLines text) := by
  have hlines : sourceLines (String.ofList (unifyNewlines text.toList)) = sourceLines text := by
    rw [sourceLines_unifyNewlines, String.ofList_toList]
  refine ⟨decodeUtf8_encodeUtf8 text, hlines, ?_⟩
  rw [readSource_of_content h (decodeUtf8_encodeUtf8 text), hlines]

theorem readSource_of_encoded_text_mixed_breaks :
    let text := "a\r\r\n\n\ré\u2028😀\r"
    let t : FileTree := ⟨[(["s"], .file (encodeUtf8 text))], []⟩
    t.readFile (.ofText "s") = .ok (encodeUtf8 text) ∧
      readSource t (.ofText "s") =
        .ok [⟨"a", 1⟩, ⟨"", 2⟩, ⟨"", 3⟩, ⟨"", 4⟩, ⟨"é", 5⟩, ⟨"😀", 6⟩] := by
  intro text t
  have h : t.readFile (.ofText "s") = .ok (encodeUtf8 text) := by decide +kernel
  have hlines : sourceLines text =
      [⟨"a", 1⟩, ⟨"", 2⟩, ⟨"", 3⟩, ⟨"", 4⟩, ⟨"é", 5⟩, ⟨"😀", 6⟩] := by decide +kernel
  refine ⟨h, ?_⟩
  rw [(readSource_of_encoded_text h).2.2, hlines]

end Flowchart

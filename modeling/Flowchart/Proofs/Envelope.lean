import Flowchart.Proofs.Clauses

/-!
# The envelope of a document

A document is a header and flowchart lines, between fences if asked for. No
source can break it from inside: a flowchart line begins with a letter and
holds no terminator, whatever the labels of the source are. Cutting a document
at its newlines gives back the lines that it was made of.
-/

namespace Flowchart

open Text

/-! ## Cutting at newlines -/

/-- The pieces between the newlines of a text. -/
def cutAtNewlines (text : String) : List String :=
  (text.toList.splitOn '\n').map String.ofList

theorem cutAtNewlines_join {ls : List String} (h : ∀ l ∈ ls, '\n' ∉ l.toList) :
    cutAtNewlines (String.join (ls.map (· ++ "\n"))) = ls ++ [""] := by
  rw [cutAtNewlines, String.toList_join]
  induction ls with
  | nil => rfl
  | cons l ls ih =>
    obtain ⟨hl, hls⟩ := List.forall_mem_cons.1 h
    have htext : (l ++ "\n").toList = l.toList ++ ['\n'] := by simp
    rw [List.map_cons, List.flatMap_cons, htext, List.append_assoc, List.singleton_append,
      List.splitOn_append_cons_self_of_not_mem hl, List.map_cons, ih hls, String.ofList_toList]
    rfl

/-- A document holds its lines, each ended by a newline, and nothing else. -/
theorem cutAtNewlines_renderDocument (fenced : Bool) {ls : List String}
    (h : ∀ l ∈ ls, '\n' ∉ l.toList) :
    cutAtNewlines (renderDocument fenced ls) = documentLines fenced ls ++ [""] := by
  refine cutAtNewlines_join ?_
  have hheader : '\n' ∉ documentHeader.toList := by decide
  have hopen : '\n' ∉ fenceOpen.toList := by decide
  have hclose : '\n' ∉ fenceClose.toList := by decide
  cases fenced with
  | false => exact List.forall_mem_cons.2 ⟨hheader, h⟩
  | true =>
    refine List.forall_mem_cons.2 ⟨hopen, List.forall_mem_cons.2 ⟨hheader, ?_⟩⟩
    exact List.forall_mem_append.2 ⟨h, by simpa using hclose⟩

/-! ## Flowchart lines in a document -/

theorem Clause.newline_not_mem_drawing (c : Clause) : '\n' ∉ c.drawing.toList := fun h => by
  cases c.drawing_unbroken _ h

/-- A frame stands behind the id of a drawing, and a space behind the first word of the header. -/
theorem Clause.drawing_ne_header (c : Clause) : c.drawing ≠ documentHeader := by
  intro h
  have htext : c.drawing.toList = "flowchart".toList ++ [' ', 'L', 'R'] := by rw [h]; rfl
  have hword : ∀ x ∈ "flowchart".toList, x.isAlpha = true := List.all_eq_true.1 (by decide)
  obtain ⟨-, hframe⟩ := c.id_unique hword (stops_cons.2 (by decide)) htext
  cases hc : c.head <;> rw [hc] at hframe <;> simp [CallName.frame] at hframe

/-- What begins with a letter does not begin like a fence. -/
theorem not_fence_of_head {l : String} (h : ∃ c ∈ l.toList.head?, c.isAlpha = true) :
    ¬fenceClose.toList <+: l.toList := by
  rintro ⟨rest, hr⟩
  obtain ⟨c, hc, ha⟩ := h
  rw [← hr] at hc
  obtain rfl : '`' = c := by simpa [fenceClose] using hc
  cases ha

theorem fence_iff_index {ls : List String} (h : ∀ l ∈ ls, ∃ c ∈ l.toList.head?, c.isAlpha = true)
    {i : Nat} {l : String} (hi : (documentLines true ls ++ [""])[i]? = some l) :
    fenceClose.toList <+: l.toList ↔ i = 0 ∨ i = ls.length + 2 := by
  have hlist : documentLines true ls ++ [""] =
      fenceOpen :: documentHeader :: (ls ++ [fenceClose, ""]) := by simp [documentLines]
  rw [hlist] at hi
  match i with
  | 0 =>
    obtain rfl : fenceOpen = l := by simpa using hi
    simp [fenceOpen, fenceClose]
  | 1 =>
    obtain rfl : documentHeader = l := by simpa using hi
    simp [documentHeader, fenceClose]
  | i + 2 =>
    have hi : (ls ++ [fenceClose, ""])[i]? = some l := by simpa using hi
    rcases Nat.lt_or_ge i ls.length with hlt | hge
    · rw [List.getElem?_append_left hlt] at hi
      have hl := not_fence_of_head (h l (List.mem_of_getElem? hi))
      simp only [hl, false_iff]
      omega
    · rw [List.getElem?_append_right hge] at hi
      obtain ⟨j, rfl⟩ : ∃ j, i = ls.length + j := ⟨i - ls.length, by omega⟩
      rw [Nat.add_sub_cancel_left] at hi
      match j with
      | 0 =>
        obtain rfl : fenceClose = l := by simpa using hi
        simp
      | 1 =>
        obtain rfl : "" = l := by simpa using hi
        simp [fenceClose]
      | j + 2 => simp at hi

/-- The lines of a document are the ones it was made of: the header, one flowchart line for each
statement, and the fences if asked for. Only the fences begin like fences. -/
theorem document_envelope (text : String) (ss : List Statement)
    (h : parseLines (sourceLines text) = .ok ss) :
    ∃ ls, transpile (sourceLines text) = .ok ls ∧ List.Forall₂ Statement.Draws ss ls ∧
      (∀ l ∈ ls, (∃ c ∈ l.toList.head?, c.isAlpha = true) ∧
        (∀ c ∈ l.toList, isTerminator c = false) ∧ l ≠ documentHeader) ∧
      (∀ fenced, cutAtNewlines (renderDocument fenced ls) =
        (if fenced then [fenceOpen] else []) ++ [documentHeader] ++ ls ++
          (if fenced then [fenceClose] else []) ++ [""]) ∧
      (∀ i l, (cutAtNewlines (renderDocument true ls))[i]? = some l →
        (fenceClose.toList <+: l.toList ↔ i = 0 ∨ i = ls.length + 2)) := by
  obtain ⟨cs, hcs⟩ := exists_clauses h
  have hcut (fenced : Bool) : cutAtNewlines (renderDocument fenced (cs.map Clause.drawing)) =
      documentLines fenced (cs.map Clause.drawing) ++ [""] :=
    cutAtNewlines_renderDocument fenced (List.forall_mem_map.2 fun c _ => c.newline_not_mem_drawing)
  have hhead : ∀ l ∈ cs.map Clause.drawing, ∃ c ∈ l.toList.head?, c.isAlpha = true :=
    List.forall_mem_map.2 fun c _ => c.exists_head_drawing
  refine ⟨cs.map Clause.drawing, transpile_of_says h hcs, ?_, ?_, ?_, ?_⟩
  · exact List.forall₂_map_right_iff.2 (hcs.imp fun _ _ => Statement.Says.draws)
  · refine List.forall_mem_map.2 fun c _ => ?_
    exact ⟨c.exists_head_drawing, c.drawing_unbroken, c.drawing_ne_header⟩
  · intro fenced
    rw [hcut]
    cases fenced <;> simp [documentLines]
  · intro i l hi
    rw [hcut] at hi
    exact fence_iff_index hhead hi

/-- A label that is a fence, on the line after a line separator, and one that is the header. -/
theorem document_envelope_fence_label :
    parseLines (sourceLines "Entity(a, \"```\")\u2028Rel(a, \"flowchart LR\", b)") =
      .ok [⟨.call .entity, 1, [⟨.identifier, "a", 1⟩, ⟨.string, "```", 1⟩]⟩,
        ⟨.call .rel, 2, [⟨.identifier, "a", 2⟩, ⟨.string, "flowchart LR", 2⟩,
          ⟨.identifier, "b", 2⟩]⟩] ∧
    ∃ ls, transpile (sourceLines "Entity(a, \"```\")\u2028Rel(a, \"flowchart LR\", b)") = .ok ls ∧
      cutAtNewlines (renderDocument true ls) =
        [fenceOpen] ++ [documentHeader] ++ ls ++ [fenceClose] ++ [""] := by
  have h : parseLines (sourceLines "Entity(a, \"```\")\u2028Rel(a, \"flowchart LR\", b)") =
      .ok [⟨.call .entity, 1, [⟨.identifier, "a", 1⟩, ⟨.string, "```", 1⟩]⟩,
        ⟨.call .rel, 2, [⟨.identifier, "a", 2⟩, ⟨.string, "flowchart LR", 2⟩,
          ⟨.identifier, "b", 2⟩]⟩] := by
    decide +kernel
  obtain ⟨ls, hls, -, -, hcut, -⟩ := document_envelope _ _ h
  exact ⟨h, ls, hls, hcut true⟩

end Flowchart

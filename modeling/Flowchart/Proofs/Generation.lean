import Flowchart.Mermaid
import Flowchart.Proofs.Grammar
import Mathlib.Data.List.Forall2

/-!
# Generating flowchart lines

Generation goes through statement lists one statement at a time, and every
statement that the parser gives has the parameters its shape shows.
-/

namespace Flowchart

/-- `l` is the flowchart line of a statement. -/
def Statement.Draws (s : Statement) (l : String) : Prop :=
  ∃ name, s.head = .call name ∧ name.line (s.params.map (·.value)) = .ok l

theorem generate_of_draws {ss : List Statement} {ls : List String}
    (h : List.Forall₂ Statement.Draws ss ls) : generate ss = .ok ls := by
  induction h with
  | nil => rfl
  | cons hs _ ih =>
    obtain ⟨name, hh, hl⟩ := hs
    simp [generate, hh, hl, ih, bind, Except.bind, pure, Except.pure]

/-- A call whose parameters fit its signature has a line. -/
theorem exists_line {name : CallName} {ps : List Token} (h : ps.map (·.kind) = name.signature) :
    ∃ l, name.line (ps.map (·.value)) = .ok l := by
  have hlen := congrArg List.length h
  rw [List.length_map] at hlen
  match name, ps, hlen with
  | .entity, [p, q], _ | .database, [p, q], _ | .queue, [p, q], _ | .decision, [p, q], _ =>
    exact ⟨_, rfl⟩
  | .rel, [p, q, r], _ => exact ⟨_, rfl⟩

theorem Call.exists_draws (c : Call) : ∃ l, c.statement.Draws l := by
  obtain ⟨l, hl⟩ := exists_line c.params_kinds
  exact ⟨l, c.head, rfl, hl⟩

/-- Every statement that the parser gives has a line. -/
theorem draws_of_parse {ts : List Token} {ss : List Statement} (h : parse ts = .ok ss) :
    ∃ ls, List.Forall₂ Statement.Draws ss ls := by
  obtain ⟨d, -, rfl⟩ := Sentence.exists_of_parse h
  choose line hline using Call.exists_draws
  refine ⟨d.calls.map fun c => line c.1, ?_⟩
  rw [Sentence.statements, List.forall₂_map_left_iff, List.forall₂_map_right_iff, List.forall₂_same]
  exact fun c _ => hline c.1

end Flowchart

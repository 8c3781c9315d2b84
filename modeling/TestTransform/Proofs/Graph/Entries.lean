/-
The entries of a graph.

An entry that equals the one under its path is not put in its place, so what is found after an
insertion is what was inserted only up to the spelling of paths.
-/
import TestTransform.Graph.Basic
import TestTransform.Proofs.Order.Lookup
import TestTransform.Proofs.Path.Order

namespace TestTransform

namespace GraphEntry

theorem samePaths_refl (ps : List Path) : samePaths ps ps = true := by
  induction ps with
  | nil => rfl
  | cons p ps ih =>
    rw [samePaths, ih, Path.same_refl]
    rfl

theorem same_refl (e : GraphEntry) : e.same e = true := by
  rw [same, samePaths_refl, beq_self_eq_true]
  rfl

end GraphEntry

namespace DependencyGraph

theorem get?_congr {p q : Path} (h : p.same q = true) (g : DependencyGraph) :
    g.get? p = g.get? q :=
  Assoc.find?_congr (Path.cmp_eq_iff_same.mpr h) _

/-- After an insertion a file has the new entry or the one it had before. -/
theorem get?_insert_cases (g : DependencyGraph) (p q : Path) (e : GraphEntry) :
    (g.insert p e).2.get? q = g.get? q ∨
      (q.same p = true ∧ (g.insert p e).2.get? q = some e) := by
  rw [insert]
  split
  · exact .inl rfl
  · simp only [get?, Assoc.find?_insert, Path.cmp_eq_iff_same]
    split
    · exact .inr ⟨‹_›, rfl⟩
    · exact .inl rfl

/-- Under the path of an insertion stands what was inserted, or what equals it. -/
theorem get?_insert_self (g : DependencyGraph) (p : Path) (e : GraphEntry) :
    ∃ e', (g.insert p e).2.get? p = some e' ∧ e'.same e = true := by
  rw [insert]
  split
  · rename_i h
    exact (Option.any_eq_true _ _).mp h
  · exact ⟨e, Assoc.find?_insert_self p e _, e.same_refl⟩

theorem get?_insert_of_not_same {p q : Path} (h : q.same p = false) (g : DependencyGraph)
    (e : GraphEntry) : (g.insert q e).2.get? p = g.get? p := by
  rcases g.get?_insert_cases q p e with hp | ⟨hsame, -⟩
  · exact hp
  · rw [Path.same_comm, h] at hsame
    cases hsame

end DependencyGraph
end TestTransform

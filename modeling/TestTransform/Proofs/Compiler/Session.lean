/-
What the steps of the type-checking compiler leave alone.

Every question only takes files in (`Explores`), so a step that asks leaves the
configuration, the options, the graph and the disk as they are.  The other steps are taken
in one by one: showing a text, recording modules, and checking dependents again.
-/
import TestTransform.Compiler.Language
import TestTransform.Proofs.Compiler.Closure
import TestTransform.Proofs.Miniature.Questions

namespace TestTransform
namespace LanguageCompiler
namespace Session

open ServiceHost (Grows)

variable {s s' s'' : Session}

/-- What questions to the miniature compiler do to a session. -/
structure Explores (s s' : Session) : Prop where
  config : s'.config = s.config
  graph : s'.compiler.graph = s.compiler.graph
  memo : s'.compiler.memo = s.compiler.memo
  disk : s'.world.disk = s.world.disk
  miniature : s'.world.engine.IsMiniature
  host : Grows s.world.view s.compiler.host s'.compiler.host

namespace Explores

theorem refl (hm : s.world.engine.IsMiniature) : Explores s s :=
  ⟨rfl, rfl, rfl, rfl, hm, Grows.refl _ _⟩

theorem view (e : Explores s s') : s'.world.view = s.world.view := by
  rw [Surroundings.view, e.disk, Surroundings.view]

theorem trans (a : Explores s s') (b : Explores s' s'') : Explores s s'' :=
  { config := b.config.trans a.config
    graph := b.graph.trans a.graph
    memo := b.memo.trans a.memo
    disk := b.disk.trans a.disk
    miniature := b.miniature
    host := a.host.trans (a.view ▸ b.host) }

end Explores

/-- The text that a session holds for a file. -/
def held? (s : Session) (p : Path) : Option Text := s.compiler.host.files.text? p

theorem held?_update (s : Session) (file p : Path) (text : Text) :
    (s.update file text).held? p = if p.same file then some text else s.held? p :=
  ServiceHost.text?_updateFile s.compiler.host file p text

/-- A text that is shown is held. -/
theorem held?_update_self (s : Session) (file : Path) (text : Text) :
    (s.update file text).held? file = some text := by
  rw [held?_update, if_pos (Path.same_refl file)]

theorem options_update (s : Session) (file : Path) (text : Text) :
    (s.update file text).compiler.host.options = s.compiler.host.options := by
  rw [Session.update, setHost]
  rcases ServiceHost.updateFile_cases s.compiler.host file text with ⟨-, hu⟩ | ⟨-, _, hu⟩
  · rw [hu]
  · rw [hu]

/-- Importers that are held back are not held. -/
theorem held?_of_unloaded {module f : Path} (hf : f ∈ s.unloadedDependents module) :
    s.held? f = none := by
  rw [unloadedDependents, List.mem_filter, Bool.not_eq_true', FileTable.contains_eq_text?] at hf
  exact Option.isNone_iff_eq_none.mp (Option.isSome_eq_false_iff.mp hf.2)

/-- So they are other files than one that is held. -/
theorem not_same_of_unloaded {p : Path} {text : Text} (ht : s.held? p = some text) (module : Path) :
    ∀ file ∈ s.unloadedDependents module, p.same file = false := by
  intro file hf
  rw [Bool.eq_false_iff]
  intro hsame
  have hnone := held?_of_unloaded hf
  rw [held?, ← FileTable.text?_congr hsame] at hnone
  rw [held?, hnone] at ht
  cases ht

theorem ask_explores {α : Type} {question : FileView → Service Engine → Path → α × Service Engine}
    (hq : Engine.TakesIn question) (hm : s.world.engine.IsMiniature) (file : Path) :
    Explores s (s.ask question file).2 := by
  obtain ⟨hm', hg⟩ := hq s.world.view s.service file hm
  exact ⟨rfl, rfl, rfl, rfl, hm', hg⟩

theorem typeCheck_explores (hm : s.world.engine.IsMiniature) (file : Path) :
    Explores s (s.typeCheck file).2 := by
  rw [typeCheck]
  split
  · have he := ask_explores Engine.check_takesIn hm file
    simp only [Surroundings.raise]
    split <;> exact ⟨he.config, he.graph, he.memo, he.disk, he.miniature, he.host⟩
  · exact Explores.refl hm

theorem collectModules_explores (hm : s.world.engine.IsMiniature) (file : Path) :
    Explores s (s.collectModules file).2 :=
  Closure.of_preserves (P := Explores s)
    (fun _ file he => he.trans (ask_explores Engine.modulesOf_takesIn he.miniature file))
    _ file s (Explores.refl hm)

/-! ## Steps -/

theorem isTest_eq (s : Session) (file : Path) :
    ∃ test memo, s.isTest file = (test, { s with compiler := { s.compiler with memo } }) :=
  ⟨_, _, rfl⟩

end Session
end LanguageCompiler
end TestTransform

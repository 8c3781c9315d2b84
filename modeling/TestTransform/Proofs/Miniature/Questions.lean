/-
What the miniature compiler does to a project when it is asked something.

Each question reads some files and answers from their texts.  So it only takes files in,
and on a file whose text is known the answer is about that text.
-/
import TestTransform.Engine.Basic
import TestTransform.Proofs.Compiler.Table

namespace TestTransform

open ServiceHost (Grows snapshot_grows snapshot_text)

namespace Miniature

variable (view : FileView)

/-! ## Questions on the host -/

theorem resolvedModules_grows (h : ServiceHost) (file : Path) :
    Grows view h (resolvedModules view h file).2 := by
  have hg := snapshot_grows h view file
  simp only [resolvedModules]
  split <;> exact hg

theorem identifierType_grows (fuel : Nat) (h : ServiceHost) (file : Path) (text name : Text)
    (depth : Nat) : Grows view h (identifierType view fuel h file text name depth).2 := by
  induction fuel generalizing h file text name depth with
  | zero => exact Grows.refl view h
  | succ fuel ih =>
    rw [identifierType]
    split
    · -- The name is declared in the file.
      split
      · exact Grows.refl view h
      · split
        · exact Grows.refl view h
        · split
          · exact Grows.refl view h
          · exact ih _ _ _ _ _
    · -- The name is imported, or not known.
      split
      · exact Grows.refl view h
      · split
        · exact Grows.refl view h
        · rename_i module _
          have hg := snapshot_grows h view module
          split
          · rename_i hs
            rwa [hs] at hg
          · rename_i hs
            rw [hs] at hg
            exact hg.trans (ih _ _ _ _ _)

theorem expressionType_grows (fuel : Nat) (h : ServiceHost) (file : Path)
    (text expression : Text) :
    Grows view h (expressionType view fuel h file text expression).2 := by
  rw [expressionType]
  split
  · exact Grows.refl view h
  · split
    · exact identifierType_grows view fuel h file text expression 1
    · exact Grows.refl view h

theorem globalsOfScripts_grows (file : Path) (scripts : List Path) (h : ServiceHost) :
    Grows view h (globalsOfScripts view file scripts h).2 := by
  induction scripts generalizing h with
  | nil => exact Grows.refl view h
  | cons script scripts ih =>
    rw [globalsOfScripts]
    split
    · exact (snapshot_grows h view script).trans (ih _)
    · exact ih h

theorem mismatchInLine_grows (fuel : Nat) (h : ServiceHost) (file : Path) (text : Text)
    (number : Nat) (line : Text) :
    Grows view h (mismatchInLine view fuel h file text number line).2 := by
  rw [mismatchInLine]
  split
  · exact Grows.refl view h
  · rename_i v _
    split
    · exact Grows.refl view h
    · have hg := expressionType_grows view fuel h file text v.value
      split
      · rename_i hs
        rw [hs] at hg
        split <;> exact hg
      · rename_i hs
        rwa [hs] at hg
      · rename_i hs
        rwa [hs] at hg

theorem mismatches_grows (fuel : Nat) (file : Path) (text : Text) (number : Nat)
    (lines : List Text) (h : ServiceHost) :
    Grows view h (mismatches view fuel file text number lines h).2 := by
  induction lines generalizing number h with
  | nil => exact Grows.refl view h
  | cons line lines ih =>
    exact (mismatchInLine_grows view fuel h file text number line).trans (ih _ _)

theorem semanticDiagnostics_grows (fuel : Nat) (h : ServiceHost) (file : Path) :
    Grows view h (semanticDiagnostics view fuel h file).2 := by
  have hg := snapshot_grows h view file
  rw [semanticDiagnostics]
  split
  · rename_i hs
    rwa [hs] at hg
  · rename_i hs
    rw [hs] at hg
    exact (hg.trans (globalsOfScripts_grows view file _ _)).trans
      (mismatches_grows view fuel file _ 0 _ _)

/-! ## Questions to a service -/

namespace Engine

variable (s : Service Engine)

theorem sync_host : (sync s).host = s.host := by
  rw [sync]
  split <;> rfl

theorem sync_skipped : (sync s).engine.skipped = s.engine.skipped := by
  rw [sync]
  split <;> rfl

theorem count_host (change : Work → Work) : (count change s).host = s.host := rfl

theorem skips_count_sync (change change' : Work → Work) (file : Path) :
    (count change (sync (count change' s))).engine.skips file = s.engine.skips file := by
  simp only [skips, count, sync_skipped]

/-- What is emitted for a file, told from its text. -/
theorem emitFile_answer (file : Path) : (emitFile view s file).1 =
    if s.engine.skips file then { skipped := true }
    else if file.isDeclaration then {}
    else
      match s.host.read? view file with
      | none => { skipped := true }
      | some text => { files := filesFor text file s.host.options } := by
  obtain ⟨ht, hg⟩ := ServiceHost.snapshot_spec s.host view file
  simp only [emitFile, skips_count_sync, Service.snapshot, count_host, sync_host, ← ht]
  split
  · rfl
  · split
    · rfl
    · cases hs : s.host.snapshot view file with
      | mk text h =>
        rw [hs] at hg
        have ho : h.options = s.host.options := hg.options
        cases text with
        | none => rfl
        | some text => simp only [ho]

/-- Emitting a file looks at it at most. -/
theorem emitFile_host (file : Path) : (emitFile view s file).2.host =
    if s.engine.skips file then s.host
    else if file.isDeclaration then s.host
    else (s.host.snapshot view file).2 := by
  simp only [emitFile, skips_count_sync, Service.snapshot, count_host, sync_host]
  split
  · simp only [count_host, sync_host]
  · split
    · simp only [count_host, sync_host]
    · cases s.host.snapshot view file with
      | mk text h =>
        cases text with
        | none => rfl
        | some text => rfl

/-- What is emitted for a file: nothing, or the files for its text. -/
theorem emitFile_cases (file : Path) :
    (emitFile view s file).1 = { skipped := true } ∨ (emitFile view s file).1 = {} ∨
      ∃ text, s.host.read? view file = some text ∧
        (emitFile view s file).1 = { files := filesFor text file s.host.options } := by
  rw [emitFile_answer]
  split
  · exact .inl rfl
  · split
    · exact .inr (.inl rfl)
    · cases s.host.read? view file with
      | none => exact .inl rfl
      | some text => exact .inr (.inr ⟨text, rfl, rfl⟩)

theorem emitFile_grows (file : Path) : Grows view s.host (emitFile view s file).2.host := by
  rw [emitFile_host]
  split
  · exact Grows.refl view s.host
  · split
    · exact Grows.refl view s.host
    · exact snapshot_grows s.host view file

theorem checkSyntax_text (file : Path) :
    (checkSyntax view s file).1 =
      ((s.host.read? view file).map fun t => syntacticDiagnostics t file).getD [] := by
  simp only [checkSyntax, Service.snapshot, sync_host, snapshot_text]

theorem checkSyntax_grows (file : Path) : Grows view s.host (checkSyntax view s file).2.host := by
  have hg := snapshot_grows s.host view file
  simpa only [checkSyntax, Service.snapshot, sync_host] using hg

theorem checkTypes_grows (file : Path) : Grows view s.host (checkTypes view s file).2.host := by
  have hg := semanticDiagnostics_grows view searchLimit s.host file
  simpa only [checkTypes, Service.ask, sync_host, count] using hg

theorem modulesOf_grows (file : Path) : Grows view s.host (modulesOf view s file).2.host := by
  have hg := resolvedModules_grows view s.host file
  simpa only [modulesOf, Service.ask, sync_host] using hg

end Engine
end Miniature

/-! ## Questions to whichever engine there is -/

namespace Engine

/-- Whether the engine is the miniature compiler. -/
def IsMiniature : Engine → Prop
  | miniature _ => True
  | scripted _ => False

instance : (e : Engine) → Decidable e.IsMiniature
  | miniature _ => .isTrue trivial
  | scripted _ => .isFalse id

/-- Whether a question, put to a service on the miniature compiler, only takes files in. -/
def TakesIn {α : Type} (question : FileView → Service Engine → Path → α × Service Engine) :
    Prop :=
  ∀ view s file, s.engine.IsMiniature →
    (question view s file).2.engine.IsMiniature ∧
      Grows view s.host (question view s file).2.host

/-- A miniature engine, as the parts of a service on it. -/
theorem IsMiniature.exists {e : Engine} (h : e.IsMiniature) : ∃ m, e = miniature m := by
  cases e with
  | miniature m => exact ⟨m, rfl⟩
  | scripted _ => exact h.elim

theorem dispatch_miniature {α : Type} {s : Service Engine} {m : Miniature.Engine}
    (hm : s.engine = miniature m)
    (onMiniature : Service Miniature.Engine → α × Service Miniature.Engine)
    (onScripted : Service Scripted.Engine → α × Service Scripted.Engine) :
    dispatch s onMiniature onScripted =
      let (answer, t) := onMiniature { engine := m, host := s.host, seen := s.seen }
      (answer, { engine := miniature t.engine, host := t.host, seen := t.seen }) := by
  rw [dispatch, hm]

/-- A question is as the miniature compiler's own question. -/
theorem takesIn_dispatch {α : Type}
    {onMiniature : FileView → Service Miniature.Engine → Path → α × Service Miniature.Engine}
    (onScripted : FileView → Service Scripted.Engine → Path → α × Service Scripted.Engine)
    (h : ∀ view s file, Grows view s.host (onMiniature view s file).2.host) :
    TakesIn fun view s file =>
      dispatch s (onMiniature view · file) (onScripted view · file) := by
  intro view s file hm
  obtain ⟨m, hm⟩ := hm.exists
  simp only [dispatch_miniature hm]
  exact ⟨trivial, h view { engine := m, host := s.host, seen := s.seen } file⟩

theorem emitFile_takesIn : TakesIn emitFile := takesIn_dispatch _ Miniature.Engine.emitFile_grows

theorem checkSyntax_takesIn : TakesIn checkSyntax :=
  takesIn_dispatch (fun _ => Scripted.Engine.checkSyntax)
    Miniature.Engine.checkSyntax_grows

theorem checkTypes_takesIn : TakesIn checkTypes :=
  takesIn_dispatch (fun _ => Scripted.Engine.checkTypes)
    Miniature.Engine.checkTypes_grows

theorem modulesOf_takesIn : TakesIn modulesOf :=
  takesIn_dispatch (fun _ => Scripted.Engine.modulesOf)
    Miniature.Engine.modulesOf_grows

theorem check_takesIn : TakesIn check := by
  intro view s file hm
  obtain ⟨hm₁, hg₁⟩ := checkSyntax_takesIn view s file hm
  obtain ⟨hm₂, hg₂⟩ := checkTypes_takesIn view _ file hm₁
  exact ⟨hm₂, hg₁.trans hg₂⟩

variable {view : FileView} {s : Service Engine} {file : Path}

theorem emitFile_cases (view : FileView) (file : Path) (hm : s.engine.IsMiniature) :
    (emitFile view s file).1 = { skipped := true } ∨ (emitFile view s file).1 = {} ∨
      ∃ text, s.host.read? view file = some text ∧ (emitFile view s file).1 =
        { files := Miniature.Engine.filesFor text file s.host.options } := by
  obtain ⟨m, hm⟩ := hm.exists
  rw [emitFile, dispatch_miniature hm]
  exact Miniature.Engine.emitFile_cases view _ file

/-- The diagnostics of a file with a text begin with those on its braces. -/
theorem check_eq_append (hm : s.engine.IsMiniature) {text : Text}
    (ht : s.host.read? view file = some text) :
    ∃ semantic, (check view s file).1 =
      Miniature.syntacticDiagnostics text file ++ semantic := by
  obtain ⟨m, hm⟩ := hm.exists
  have hsyn : (checkSyntax view s file).1 = Miniature.syntacticDiagnostics text file := by
    rw [checkSyntax, dispatch_miniature hm]
    simp only [Miniature.Engine.checkSyntax_text, ht, Option.map_some, Option.getD_some]
  refine ⟨(checkTypes view (checkSyntax view s file).2 file).1, ?_⟩
  simp only [check, hsyn]

end Engine
end TestTransform

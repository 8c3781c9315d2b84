/-
The verdict on a file, and what it depends on.

Of a failure a caller can rely on its kind and its codes; how the diagnostics are shown
depends on where the compiler works.  The verdict that compiling a file comes to is the same
in two sessions that look alike to their engines, hold the same recorded importers back, and
agree on whether the file is a test.
-/
import TestTransform.Compiler.Language
import TestTransform.Proofs.Engine.Alike

namespace TestTransform

/-! ## Verdicts -/

namespace CompileError

inductive Kind where
  | diagnostics
  | emitSkipped
  | noOutput
  | missingReferencedOutput
  | io
  deriving DecidableEq, Repr

def kind : CompileError → Kind
  | diagnostics _ _ => .diagnostics
  | emitSkipped _ => .emitSkipped
  | noOutput _ => .noOutput
  | missingReferencedOutput _ _ _ => .missingReferencedOutput
  | io _ _ => .io

/-- An outcome, of whose error only the kind and the codes are kept. -/
def verdict {α : Type} (outcome : Except CompileError α) : Except (Kind × List Nat) α :=
  outcome.mapError fun e => (e.kind, e.codes)

/-- The verdict on an error says nothing about outputs. -/
theorem verdict_error {α β : Type} {e e' : CompileError}
    (h : verdict (.error e : Except CompileError α) = verdict (.error e')) :
    verdict (.error e : Except CompileError β) = verdict (.error e') := by
  have hsame : (e.kind, e.codes) = (e'.kind, e'.codes) := Except.error.inj h
  exact congrArg Except.error hsame

/-- Outcomes of one verdict both succeed or both fail. -/
theorem isOk_of_verdict {α : Type} {x y : Except CompileError α} (h : verdict x = verdict y) :
    x.isOk = y.isOk := by
  cases x with
  | ok a =>
    cases y with
    | ok b => rfl
    | error e => cases h
  | error e =>
    cases y with
    | ok b => cases h
    | error e' => rfl

end CompileError

open CompileError (verdict)
open ServiceHost (Grows)

theorem ConfigSet.judge_congr {c c' : ConfigSet} (h : c.diagnostics = c'.diagnostics)
    (ds : List Diagnostic) (file : Path) : c.judge ds file = c'.judge ds file := by
  unfold judge shouldReport
  rw [h]

namespace LanguageCompiler
namespace Session

variable {s s' s'' t t' : Session}

/-! ## What questions to any engine do -/

/-- What questions do to a session, whichever engine is asked. -/
structure Widens (s s' : Session) : Prop where
  config : s'.config = s.config
  graph : s'.compiler.graph = s.compiler.graph
  memo : s'.compiler.memo = s.compiler.memo
  disk : s'.world.disk = s.world.disk
  engine : Engine.Alike s.world.engine s'.world.engine
  host : Grows s.world.view s.compiler.host s'.compiler.host

namespace Widens

theorem refl (s : Session) : Widens s s :=
  ⟨rfl, rfl, rfl, rfl, Engine.Alike.refl _, Grows.refl _ _⟩

theorem trans (a : Widens s s') (b : Widens s' s'') : Widens s s'' := by
  have hview : s'.world.view = s.world.view := by
    rw [Surroundings.view, a.disk, Surroundings.view]
  exact ⟨b.config.trans a.config, b.graph.trans a.graph, b.memo.trans a.memo,
    b.disk.trans a.disk, a.engine.trans b.engine, a.host.trans (hview ▸ b.host)⟩

/-- What is known stays known. -/
theorem contains (w : Widens s s') {p : Path}
    (hp : s.compiler.host.files.contains p = true) : s'.compiler.host.files.contains p = true := by
  obtain ⟨r, hr⟩ := FileTable.contains_eq_true.mp hp
  exact FileTable.contains_eq_true.mpr ⟨r, w.host.known p r hr⟩

theorem recordedText?_eq (w : Widens s s') (file : Path) :
    s'.recordedText? file = s.recordedText? file := by
  rw [recordedText?, recordedText?, w.disk, w.graph]

theorem isTest_fst (w : Widens s s') (file : Path) : (s'.isTest file).1 = (s.isTest file).1 := by
  simp only [isTest, w.config, w.memo]

/-- Of the importers that were not loaded, those are left that were not taken in. -/
theorem unloadedDependents_eq (w : Widens s s') (module : Path) :
    s'.unloadedDependents module = (s.unloadedDependents module).filter fun file =>
      !s'.compiler.host.files.contains file := by
  rw [unloadedDependents, unloadedDependents, w.graph, List.filter_filter]
  refine List.filter_congr fun file _ => ?_
  cases hs : s.compiler.host.files.contains file with
  | true => simp [w.contains hs]
  | false => simp

end Widens

theorem ask_widens {α : Type} {question : FileView → Service Engine → Path → α × Service Engine}
    (hq : Engine.Keeps question) (s : Session) (file : Path) :
    Widens s (s.ask question file).2 := by
  obtain ⟨he, hg⟩ := hq s.world.view s.service file
  exact ⟨rfl, rfl, rfl, rfl, he, hg⟩

theorem typeCheck_widens (s : Session) (file : Path) : Widens s (s.typeCheck file).2 := by
  rw [typeCheck]
  split
  · have hw := ask_widens Engine.check_keeps s file
    simp only [Surroundings.raise]
    split
    · exact hw
    · exact ⟨hw.config, hw.graph, hw.memo, hw.disk, hw.engine, hw.host⟩
  · exact Widens.refl s

theorem collectModules_widens (s : Session) (file : Path) : Widens s (s.collectModules file).2 :=
  Closure.of_preserves (P := Widens s)
    (fun t file hw => hw.trans (ask_widens Engine.modulesOf_keeps t file)) _ file s
    (Widens.refl s)

/-- Emits a file and checks it, which is what compiling it begins with. -/
def ownCheck (s : Session) (file : Path) : Except CompileError Unit × Session :=
  (s.ask Engine.emitFile file).2.typeCheck file

theorem ownCheck_widens (s : Session) (file : Path) : Widens s (s.ownCheck file).2 :=
  (ask_widens Engine.emitFile_keeps s file).trans (typeCheck_widens _ file)

theorem build_eq (s : Session) (file : Path) (content : Text) : s.build file content =
    match s.ownCheck file with
    | (.error e, t) => (.error e, t)
    | (.ok (), t) =>
      match t.followUp file content with
      | (.error e, u) => (.error e, u)
      | (.ok (), u) =>
        match selectOutput file (s.ask Engine.emitFile file).1 with
        | .error e => (.error e, u)
        | .ok o => (.ok o, u.remember file o) := rfl

/-! ## Two sessions -/

/-- Whether two sessions look alike to their engines and judge diagnostics alike. -/
structure Alike (V W : Path → Prop) (s s' : Session) : Prop where
  diagnostics : s.config.diagnostics = s'.config.diagnostics
  service : Service.Alike V W s.world.disk s'.world.disk s.service s'.service

variable {V W : Path → Prop} {file : Path}

section Steps

variable (hV : ∀ p : Path, p.IsDotted → V p) (hW : ∀ p : Path, W p → V p.normalize)
include hV hW

omit hV hW in
theorem Alike.ask {α : Type} {question : FileView → Service Engine → Path → α × Service Engine}
    (a : Alike V W s s') (hq : Service.AnswerAlike V W s.world.disk s'.world.disk question
      s.service s'.service file) :
    (s.ask question file).1 = (s'.ask question file).1 ∧
      Alike V W (s.ask question file).2 (s'.ask question file).2 :=
  ⟨hq.1, a.diagnostics, hq.2⟩

/-- Checking a file comes to the same verdict in both. -/
theorem typeCheck_alike (a : Alike V W s s') (hf : V file.normalize) :
    verdict (s.typeCheck file).1 = verdict (s'.typeCheck file).1 ∧
      Alike V W (s.typeCheck file).2 (s'.typeCheck file).2 := by
  have hreport : s.config.shouldReport file = s'.config.shouldReport file := by
    rw [ConfigSet.shouldReport, a.diagnostics, ConfigSet.shouldReport]
  obtain ⟨hds, ha⟩ := a.ask (Service.check_alike hV hW a.service hf)
  rw [typeCheck, typeCheck, hreport]
  by_cases hr : s'.config.shouldReport file = true
  · rw [if_pos hr, if_pos hr]
    simp only [Surroundings.raise, hds]
    rw [show (s.ask Engine.check file).2.config = s.config from rfl,
      show (s'.ask Engine.check file).2.config = s'.config from rfl,
      ConfigSet.judge_congr a.diagnostics]
    split
    · exact ⟨rfl, ha⟩
    · exact ⟨rfl, ha.diagnostics, ha.service⟩
  · rw [if_neg hr, if_neg hr]
    exact ⟨rfl, a⟩

omit hV hW in
/-- Showing both the same text. -/
theorem Alike.update (a : Alike V W s s') (file : Path) (text : Text) :
    Alike V W (s.update file text) (s'.update file text) := by
  refine ⟨a.diagnostics, a.service.engine, a.service.host.updateFile file text, ?_⟩
  intro t p
  show Miniature.emit t p (s.update file text).compiler.host.options =
    Miniature.emit t p (s'.update file text).compiler.host.options
  rw [options_update, options_update]
  exact a.service.emits t p

/-- Checking the same files again, with the same recorded texts. -/
theorem recheck_alike (files : List Path) (a : Alike V W s s')
    (hfiles : ∀ f ∈ files, V f.normalize ∧ s.recordedText? f = s'.recordedText? f) :
    verdict (s.recheck files).1 = verdict (s'.recheck files).1 := by
  induction files generalizing s s' with
  | nil => rfl
  | cons f files ih =>
    obtain ⟨hf, htext⟩ := hfiles f List.mem_cons_self
    have hrest : ∀ g ∈ files, V g.normalize ∧ s.recordedText? g = s'.recordedText? g :=
      fun g hg => hfiles g (List.mem_cons_of_mem _ hg)
    rw [recheck, recheck, htext]
    cases s'.recordedText? f with
    | none => exact ih a hrest
    | some text =>
      dsimp only
      obtain ⟨hverdict, hafter⟩ := typeCheck_alike hV hW (a.update f text) hf
      have hw := typeCheck_widens (s.update f text) f
      have hw' := typeCheck_widens (s'.update f text) f
      cases hl : (s.update f text).typeCheck f with
      | mk outcome t =>
        cases hr : (s'.update f text).typeCheck f with
        | mk outcome' t' =>
          rw [hl, hr] at hverdict hafter
          rw [hl] at hw
          rw [hr] at hw'
          cases outcome with
          | ok u =>
            cases outcome' with
            | error e => cases hverdict
            | ok u' =>
              refine ih hafter fun g hg => ?_
              rw [hw.recordedText?_eq, hw'.recordedText?_eq]
              exact hrest g hg
          | error e =>
            cases outcome' with
            | ok u => cases hverdict
            | error e' => exact CompileError.verdict_error hverdict

/-- Whether two sessions hold back the same recorded importers of a module, and would check
them with the same texts. -/
structure SameDependents (V W : Path → Prop) (s s' : Session) (module : Path) : Prop where
  list : s.unloadedDependents module = s'.unloadedDependents module
  each : ∀ f ∈ s.unloadedDependents module,
    W f ∧ V f.normalize ∧ s.recordedText? f = s'.recordedText? f

omit hV hW in
theorem SameDependents.widens (h : SameDependents V W s s' file) (hw : Widens s t)
    (hw' : Widens s' t') (a : Alike V W t t') : SameDependents V W t t' file := by
  have hlist : t.unloadedDependents file = t'.unloadedDependents file := by
    rw [hw.unloadedDependents_eq, hw'.unloadedDependents_eq, ← h.list]
    refine List.filter_congr fun f hf => ?_
    exact congrArg (!·) (a.service.host.loaded f (h.each f hf).1)
  refine ⟨hlist, fun f hf => ?_⟩
  rw [hw.unloadedDependents_eq] at hf
  obtain ⟨hloaded, hseen, htext⟩ := h.each f (List.mem_of_mem_filter hf)
  exact ⟨hloaded, hseen, by rw [hw.recordedText?_eq, hw'.recordedText?_eq, htext]⟩

theorem followUp_alike (a : Alike V W s s')
    (htest : (s.isTest file).1 = (s'.isTest file).1)
    (hdependents : (s.isTest file).1 = false → SameDependents V W s s' file) (content : Text) :
    verdict (s.followUp file content).1 = verdict (s'.followUp file content).1 := by
  obtain ⟨test, memo, ht⟩ := isTest_eq s file
  obtain ⟨test', memo', ht'⟩ := isTest_eq s' file
  rw [followUp, followUp, ht, ht']
  rw [ht, ht'] at htest
  rw [ht] at hdependents
  cases htest
  cases test with
  | true => rfl
  | false =>
    have hd := hdependents rfl
    have hlist := hd.list
    show verdict (recheck _ (s.unloadedDependents file)).1 =
      verdict (recheck _ (s'.unloadedDependents file)).1
    rw [← hlist]
    refine recheck_alike hV hW _ ⟨a.diagnostics, a.service⟩ fun f hf => ?_
    exact (hd.each f hf).2

/-- Emitting a file and checking it. -/
theorem ownCheck_alike (a : Alike V W s s') (hf : V file.normalize) :
    (s.ask Engine.emitFile file).1 = (s'.ask Engine.emitFile file).1 ∧
      verdict (s.ownCheck file).1 = verdict (s'.ownCheck file).1 ∧
        Alike V W (s.ownCheck file).2 (s'.ownCheck file).2 := by
  obtain ⟨hemitted, ha⟩ := a.ask (Service.emitFile_alike hV hW a.service hf)
  exact ⟨hemitted, typeCheck_alike hV hW ha hf⟩

/-- Compiling a file comes to the same verdict in both. -/
theorem build_alike (a : Alike V W s s') (hf : V file.normalize)
    (htest : (s.isTest file).1 = (s'.isTest file).1)
    (hdependents : (s.isTest file).1 = false → SameDependents V W s s' file) (content : Text) :
    verdict (s.build file content).1 = verdict (s'.build file content).1 := by
  obtain ⟨hemitted, hverdict, ha⟩ := ownCheck_alike hV hW a hf
  have hw := ownCheck_widens s file
  have hw' := ownCheck_widens s' file
  rw [build_eq, build_eq, hemitted]
  cases hl : s.ownCheck file with
  | mk outcome t =>
    cases hr : s'.ownCheck file with
    | mk outcome' t' =>
      rw [hl, hr] at hverdict ha
      rw [hl] at hw
      rw [hr] at hw'
      cases outcome with
      | error e =>
        cases outcome' with
        | ok _ => cases hverdict
        | error e' => exact CompileError.verdict_error hverdict
      | ok _ =>
        cases outcome' with
        | error e => cases hverdict
        | ok _ =>
          have htest' : (t.isTest file).1 = (t'.isTest file).1 := by
            rw [hw.isTest_fst, hw'.isTest_fst, htest]
          have hfollow := followUp_alike hV hW ha htest' (fun h =>
            (hdependents (by rwa [hw.isTest_fst] at h)).widens hw hw' ha) content
          dsimp only
          cases hfl : t.followUp file content with
          | mk outcome u =>
            cases hfr : t'.followUp file content with
            | mk outcome' u' =>
              rw [hfl, hfr] at hfollow
              cases outcome with
              | error e =>
                cases outcome' with
                | ok _ => cases hfollow
                | error e' => exact CompileError.verdict_error hfollow
              | ok _ =>
                cases outcome' with
                | error e => cases hfollow
                | ok _ =>
                  dsimp only
                  split
                  · rfl
                  · rfl

end Steps

end Session
end LanguageCompiler
end TestTransform

/-
An output that is given again is the one that compiling would give.

The type-checking compiler remembers an output with the number of the project's state and
gives it again while that number stands.  The invariant is `Sound`: an output remembered
for the current state is the output of the text that is held, under the options that are
set.  Questions to the engine keep it, because they change no file that is known; a new
text and new options keep it, because they move the number on.
-/
import TestTransform.Compiler.Isolated
import TestTransform.Proofs.Compiler.Session
import TestTransform.Proofs.Miniature.Emit

namespace TestTransform

/-! ## What compiling a text on its own gives -/

namespace ConfigSet

/-- Diagnostics are let through only if those in front of them are. -/
theorem judge_of_append {c : ConfigSet} {ds ds' : List Diagnostic} {file : Path}
    {warnings : List Diagnostic} (h : c.judge (ds ++ ds') file = .ok warnings) :
    ∃ warnings, c.judge ds file = .ok warnings := by
  simp only [judge] at h ⊢
  split
  · exact ⟨_, rfl⟩
  · rename_i hr
    rw [if_neg hr] at h
    split
    · rename_i himportant
      -- What fails the compilation is also among all diagnostics.
      rw [DiagnosticsPolicy.filter, List.filter_append, List.filter_append, if_pos] at h
      · cases h
      · rw [Bool.and_eq_true, Bool.not_eq_true', List.isEmpty_eq_false_iff] at himportant ⊢
        refine ⟨himportant.1, fun hnil => himportant.2 ?_⟩
        exact (List.append_eq_nil_iff.mp hnil).1
    · exact ⟨_, rfl⟩

/-- Whether an output is what the miniature compiler gives for a text, the braces of which
are let pass. -/
structure IsOutput (c : ConfigSet) (o : CompilerOptions) (text : Text) (p : Path)
    (out : CompiledOutput) : Prop where
  emitted : out = .finalize (Miniature.emit text p o).1 (Miniature.emit text p o).2 p
  passed : ∃ warnings, c.judge (Miniature.syntacticDiagnostics text p) p = .ok warnings

theorem IsOutput.congr {c : ConfigSet} {o o' : CompilerOptions} {text : Text} {p : Path}
    {out : CompiledOutput} (h : c.IsOutput o text p out)
    (ho : Miniature.emit text p o = Miniature.emit text p o') : c.IsOutput o' text p out :=
  ⟨ho ▸ h.emitted, h.passed⟩

end ConfigSet

namespace IsolatedCompiler

theorem transpile_of_isOutput {c : ConfigSet} {content : Text} {p : Path}
    {options : TransformOptions} {out : CompiledOutput} {w : Surroundings}
    (hm : w.engine.IsMiniature) (h : c.IsOutput (c.optionsFor options) content p out) :
    (transpile c content p options w).1 = .ok out := by
  obtain ⟨m, hm⟩ := hm.exists
  obtain ⟨warnings, hw⟩ := h.passed
  rw [h.emitted]
  cases hr : c.shouldReport p with
  | true =>
    simp [transpile, hm, Engine.transpile, Miniature.Engine.transpile, Surroundings.raise, hw, hr,
      Except.map]
  | false =>
    simp [transpile, hm, Engine.transpile, Miniature.Engine.transpile, hr, Except.map]

/-- Without referenced projects every file is compiled. -/
theorem compile_of_isOutput {c : ConfigSet} {content : Text} {file : Path}
    {options : TransformOptions} {out : CompiledOutput} {w : Surroundings}
    (hm : w.engine.IsMiniature)
    (h : c.IsOutput (c.optionsFor options) content file.normalize out) :
    (compile { c with references := [] } content file options w).1 = .ok out := by
  have ht := transpile_of_isOutput (c := { c with references := [] }) hm ⟨h.emitted, h.passed⟩
  simpa only [compile, ConfigSet.referenceFor?, List.find?_nil] using ht

end IsolatedCompiler

/-! ## The invariant -/

namespace ServiceHost

/-- The outputs remembered for the current state are outputs of the texts that are held. -/
def Sound (c : ConfigSet) (h : ServiceHost) : Prop :=
  ∀ p r v out, h.files.get? p = some r → r.output = some (v, out) →
    v ≤ h.projectVersion ∧
      (v = h.projectVersion → c.IsOutput h.options r.text p.normalize out)

namespace Sound

variable {c : ConfigSet} {h h' : ServiceHost}

theorem of_empty (he : h.files = {}) : Sound c h := by
  intro p r v out hp
  rw [he] at hp
  cases hp

theorem grows {view : FileView} (hs : Sound c h) (g : Grows view h h') : Sound c h' := by
  intro p r v out hp ho
  cases hold : h.files.get? p with
  | none =>
    rw [(g.new p r hold hp).2] at ho
    cases ho
  | some r' =>
    have hr := g.known p r' hold
    rw [hp] at hr
    cases hr
    obtain ⟨hle, hout⟩ := hs p r v out hold ho
    have hversion := g.version
    refine ⟨Nat.le_trans hle hversion, fun hv => ?_⟩
    rw [g.options]
    exact hout (by omega)

theorem updateFile (hs : Sound c h) (p : Path) (text : Text) :
    Sound c (h.updateFile p text).2 := by
  rcases updateFile_cases h p text with ⟨-, hu⟩ | ⟨-, version, hu⟩
  · rwa [hu]
  · rw [hu]
    intro q r v out hq ho
    rw [FileTable.get?_put] at hq
    split at hq
    · cases hq
      cases ho
    · have hle := (hs q r v out hq ho).1
      dsimp only
      exact ⟨by omega, fun hv => by omega⟩

theorem setOptions (hs : Sound c h) (o : CompilerOptions) : Sound c (h.setOptions o) := by
  rw [ServiceHost.setOptions]
  split
  · exact hs
  · intro p r v out hp ho
    have hle := (hs p r v out hp ho).1
    dsimp only
    exact ⟨by omega, fun hv => by omega⟩

/-- Remembering an output of the text that is held. -/
theorem storeOutput (hs : Sound c h) {p : Path} (hp : p.normalize = p) {text : Text}
    (ht : h.files.text? p = some text) {out : CompiledOutput}
    (hout : c.IsOutput h.options text p out) :
    Sound c { h with files := h.files.storeOutput p h.projectVersion out } := by
  intro q r v o hq ho
  rw [FileTable.get?_storeOutput] at hq
  split at hq
  · rename_i hsame
    obtain ⟨r', hr', rfl⟩ := Option.map_eq_some_iff.mp hq
    have htext : r'.text = text := by simpa [FileTable.text?, hr'] using ht
    have hqp : q.normalize = p := by rw [Path.normalize_congr hsame, hp]
    cases ho
    refine ⟨Nat.le_refl _, fun _ => ?_⟩
    dsimp only
    rwa [htext, hqp]
  · exact hs q r v o hq ho

end Sound

end ServiceHost

namespace LanguageCompiler
namespace Session

/-- A session on the miniature compiler whose remembered outputs are right. -/
structure Valid (c : ConfigSet) (s : Session) : Prop where
  config : s.config = c
  miniature : s.world.engine.IsMiniature
  sound : s.compiler.host.Sound c

/-- A session in which a file with a text is being compiled. -/
structure Building (c : ConfigSet) (o : CompilerOptions) (p : Path) (text : Text)
    (s : Session) : Prop extends Valid c s where
  options : s.compiler.host.options = o
  text : s.held? p = some text

variable {c : ConfigSet} {o : CompilerOptions} {p : Path} {text : Text} {s s' : Session}

theorem Valid.explores (h : Valid c s) (e : Explores s s') : Valid c s' :=
  ⟨e.config.trans h.config, e.miniature, h.sound.grows e.host⟩

theorem Valid.update (h : Valid c s) (file : Path) (text : Text) : Valid c (s.update file text) :=
  ⟨h.config, h.miniature, h.sound.updateFile file text⟩

theorem Valid.setOptions (h : Valid c s) (options : TransformOptions) :
    Valid c (s.setOptions options) :=
  ⟨h.config, h.miniature, h.sound.setOptions _⟩

theorem Building.explores (h : Building c o p text s) (e : Explores s s') :
    Building c o p text s' :=
  { h.toValid.explores e with
    options := e.host.options.trans h.options
    text := e.host.text?_eq h.text }

/-- Showing a text for another file. -/
theorem Building.update (h : Building c o p text s) {file : Path} (hne : p.same file = false)
    (t : Text) : Building c o p text (s.update file t) :=
  { h.toValid.update file t with
    options := by rw [options_update, h.options]
    text := by
      rw [held?_update, hne]
      exact h.text }

/-! ## Compiling -/

/-- A check that passes lets the braces of the file pass. -/
theorem judge_of_typeCheck (h : Building c o p text s) (hp : p.normalize = p)
    (hok : (s.typeCheck p).1 = .ok ()) :
    ∃ warnings, c.judge (Miniature.syntacticDiagnostics text p) p = .ok warnings := by
  rw [← h.config]
  cases hr : s.config.shouldReport p with
  | false => exact ⟨[], by simp [ConfigSet.judge, hr]⟩
  | true =>
    have hread : s.service.host.read? s.world.view p = some text :=
      ServiceHost.read?_of_text? _ hp h.text
    obtain ⟨semantic, hds⟩ := Engine.check_eq_append (s := s.service) h.miniature hread
    simp only [typeCheck, hr, if_true, ask, Surroundings.raise, hds] at hok
    split at hok
    · cases hok
    · rename_i hjudge
      exact ConfigSet.judge_of_append hjudge

theorem recheck_building (files : List Path) (h : Building c o p text s)
    (hne : ∀ file ∈ files, p.same file = false) : Building c o p text (s.recheck files).2 := by
  induction files generalizing s with
  | nil => exact h
  | cons file files ih =>
    have hrest : ∀ file ∈ files, p.same file = false :=
      fun f hf => hne f (List.mem_cons_of_mem _ hf)
    rw [recheck]
    split
    · exact ih h hrest
    · rename_i t _
      have hu := h.update (hne file List.mem_cons_self) t
      have hc := hu.explores (typeCheck_explores hu.miniature file)
      split <;> rename_i heq <;> rw [heq] at hc
      · exact ih hc hrest
      · exact hc

theorem followUp_building (h : Building c o p text s) (content : Text) :
    Building c o p text (s.followUp p content).2 := by
  obtain ⟨test, memo, ht⟩ := isTest_eq s p
  have hmemo : Building c o p text { s with compiler := { s.compiler with memo } } :=
    ⟨⟨h.config, h.miniature, h.sound⟩, h.options, h.text⟩
  rw [followUp, ht]
  cases test with
  | true =>
    have hw := hmemo.explores (collectModules_explores hmemo.miniature p)
    exact ⟨⟨hw.config, hw.miniature, hw.sound⟩, hw.options, hw.text⟩
  | false => exact recheck_building _ hmemo (not_same_of_unloaded hmemo.text p)

theorem remember_valid (h : Building c o p text s) (hp : p.normalize = p) {out : CompiledOutput}
    (hout : c.IsOutput o text p out) : Valid c (s.remember p out) :=
  ⟨h.config, h.miniature, h.sound.storeOutput hp h.text (h.options ▸ hout)⟩

/-- Compiling leaves a valid session, and its output is that of the text. -/
theorem build_spec (h : Building c o p text s) (hp : p.normalize = p) :
    Valid c (s.build p text).2 ∧
      ∀ out, (s.build p text).1 = .ok out → c.IsOutput o text p out := by
  have he := ask_explores Engine.emitFile_takesIn h.miniature p
  have hemitted := Engine.emitFile_cases (s := s.service) s.world.view p h.miniature
  have h₁ := h.explores he
  rw [build]
  simp only [ask] at h₁ ⊢
  generalize Engine.emitFile s.world.view s.service p = emission at h₁ hemitted ⊢
  obtain ⟨emitted, service⟩ := emission
  have hpassed := judge_of_typeCheck h₁ hp
  have h₂ := h₁.explores (typeCheck_explores h₁.miniature p)
  dsimp only at h₁ h₂ hpassed ⊢
  split
  · rename_i heq
    rw [heq] at h₂
    exact ⟨h₂.toValid, fun _ h => by cases h⟩
  · rename_i heq
    rw [heq] at h₂ hpassed
    have h₃ := followUp_building h₂ text
    split
    · rename_i heq'
      rw [heq'] at h₃
      exact ⟨h₃.toValid, fun _ h => by cases h⟩
    · rename_i heq'
      rw [heq'] at h₃
      -- Of what may have been emitted, only the files of the text make an output.
      have hselect : ∀ out, selectOutput p emitted = .ok out → c.IsOutput o text p out := by
        intro out hout
        rcases hemitted with rfl | rfl | ⟨t, ht, rfl⟩
        · simp [selectOutput] at hout
        · simp [selectOutput, Emitted.code?] at hout
        · have hread : s.service.host.read? s.world.view p = some text :=
            ServiceHost.read?_of_text? _ hp h.text
          rw [hread] at ht
          cases ht
          rw [Miniature.selectOutput_filesFor hp] at hout
          cases hout
          refine ⟨?_, hpassed rfl⟩
          rw [← h.options]
          rfl
      split
      · exact ⟨h₃.toValid, fun _ h => by cases h⟩
      · rename_i out hout
        exact ⟨remember_valid h₃ hp (hselect out hout), fun _ h => by
          cases h
          exact hselect out hout⟩

theorem Valid.begin (h : Valid c s) (content : Text) (file : Path) (options : TransformOptions) :
    Building c ((s.setOptions options).compiler.host.options) file content
      ((s.setOptions options).update file content) :=
  { (h.setOptions options).update file content with
    options := options_update _ _ _
    text := held?_update_self _ _ _ }

/-- Compiling leaves a valid session, and its output, new or remembered, is that of the
text under the options of the call. -/
theorem compile_spec (h : Valid c s) (content : Text) (file : Path) (options : TransformOptions) :
    Valid c (s.compile content file options).2 ∧
      ∀ out, (s.compile content file options).1 = .ok out →
        c.IsOutput (c.optionsFor options) content file.normalize out := by
  have hp := Path.normalize_normalize file
  have hb := h.begin content file.normalize options
  have hoptions : ∀ out, c.IsOutput (s.setOptions options).compiler.host.options content
      file.normalize out → c.IsOutput (c.optionsFor options) content file.normalize out := by
    intro out hout
    refine hout.congr ?_
    rw [Session.setOptions, setHost, ← h.config]
    exact ServiceHost.emit_setOptions _ _ _ _
  rw [compile]
  split
  · rename_i out hr
    refine ⟨hb.toValid, fun out' h' => hoptions out' ?_⟩
    cases h'
    obtain ⟨r, hr, hout⟩ := FileTable.output?_eq_some.mp hr
    have htext : r.text = content := by
      have := hb.text
      rw [held?, FileTable.text?, hr] at this
      exact Option.some.inj this
    have hsound := (hb.sound _ _ _ _ hr hout).2 rfl
    rwa [htext, hp, hb.options] at hsound
  · obtain ⟨hv, hout⟩ := build_spec hb hp
    exact ⟨hv, fun out h' => hoptions out (hout out h')⟩

theorem resolvedModules_valid (h : Valid c s) (content : Text) (file : Path) :
    Valid c (s.resolvedModules content file).2 := by
  rw [resolvedModules]
  split
  · exact h
  · have hu := h.update file.normalize content
    have hw := hu.explores (collectModules_explores hu.miniature file.normalize)
    dsimp only
    split <;> rename_i heq <;> simp only [isTest, Prod.mk.injEq] at heq
    · rw [← heq.2]
      exact ⟨hw.config, hw.miniature, hw.sound⟩
    · rw [← heq.2]
      exact ⟨hw.config, hw.miniature, hw.sound⟩

/-! ## Runs -/

/-- The sessions of a compiler on the miniature engine: it is made, and then called again
and again, while files may change in any way between two calls. -/
inductive Reachable (c : ConfigSet) : Session → Prop where
  | create (view : FileView) {world : Surroundings} :
      world.engine.IsMiniature → Reachable c ⟨LanguageCompiler.create view c, world⟩
  | compile {s : Session} (content : Text) (file : Path) (options : TransformOptions) :
      Reachable c s → Reachable c (s.compile content file options).2
  | resolvedModules {s : Session} (content : Text) (file : Path) :
      Reachable c s → Reachable c (s.resolvedModules content file).2
  | change {s : Session} {world : Surroundings} :
      world.engine.IsMiniature → Reachable c s → Reachable c { s with world }

theorem Reachable.valid (h : Reachable c s) : Valid c s := by
  induction h with
  | create view hm => exact ⟨rfl, hm, ServiceHost.Sound.of_empty rfl⟩
  | compile content file options _ ih => exact (compile_spec ih content file options).1
  | resolvedModules content file _ ih => exact resolvedModules_valid ih content file
  | change hm _ ih => exact ⟨ih.config, hm, ih.sound⟩

/-- Whenever the type-checking compiler gives an output, be it a new one or one given
again, compiling the text on its own gives the same. -/
theorem compile_eq_isolated (h : Reachable c s) {content : Text} {file : Path}
    {options : TransformOptions} {out : CompiledOutput}
    (hout : (s.compile content file options).1 = .ok out) (w : Surroundings)
    (hw : w.engine.IsMiniature) :
    (IsolatedCompiler.compile { c with references := [] } content file options w).1 = .ok out :=
  IsolatedCompiler.compile_of_isOutput hw ((compile_spec h.valid content file options).2 out hout)

/-- A project without any files that asks for source maps. -/
def sampleConfig : ConfigSet where
  host := { rootDir := Path.ofString "/project" }
  tsconfigPath := none
  options := ResolvedTsConfig.complete { rootDir := Path.ofString "/project" } {}
  fileNames := []
  references := []
  diagnostics := { ignoreCodes := DiagnosticsPolicy.alwaysIgnored }
  isolated := false
  useEsm := true
  compilerName := CompilerRegistry.defaultName
  compiler := ⟨0, Miniature.Engine.defaultVersion⟩
  cacheDirectory := none
  stringify := none
  tests := ⟨[], [], []⟩

def sampleWorld : Surroundings :=
  { disk := {}, engine := .miniature { version := Miniature.Engine.defaultVersion } }

/-- The session after a file has been compiled once. -/
def sampleSession : Session :=
  (Session.compile ⟨create sampleWorld.view sampleConfig, sampleWorld⟩
    "export const a: number = 1;\n" (Path.ofString "/project/a.ts") {}).2

/-- The second time the output is given again, and is that of compiling the text on its
own. -/
theorem compile_eq_isolated_again : ∃ out,
    sampleSession.reusable? (Path.ofString "/project/a.ts") = some out ∧
      (IsolatedCompiler.compile { sampleConfig with references := [] }
        "export const a: number = 1;\n" (Path.ofString "/project/a.ts") {} sampleWorld).1 =
          .ok out := by
  have hsome : (sampleSession.reusable? (Path.ofString "/project/a.ts")).isSome = true := by
    decide +kernel
  obtain ⟨out, hout⟩ := Option.isSome_iff_exists.mp hsome
  have hagain : (sampleSession.compile "export const a: number = 1;\n"
      (Path.ofString "/project/a.ts") {}).1.toOption =
        sampleSession.reusable? (Path.ofString "/project/a.ts") := by
    decide +kernel
  refine ⟨out, hout, compile_eq_isolated (s := sampleSession) ?_ ?_ sampleWorld trivial⟩
  · exact .compile _ _ _ (.create sampleWorld.view trivial)
  · rw [hout] at hagain
    cases h : (sampleSession.compile "export const a: number = 1;\n"
        (Path.ofString "/project/a.ts") {}).1 with
    | error e => rw [h] at hagain; cases hagain
    | ok out' => rw [h] at hagain; cases hagain; rfl

end Session
end LanguageCompiler
end TestTransform

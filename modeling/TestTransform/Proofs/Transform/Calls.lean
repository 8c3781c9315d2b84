/-
What the calls of a transformer do to its compilers.

A call finds a compiler, or makes one, and then at most one compiler works.  So what holds
of every type-checking compiler after it is made, and is kept by its own calls, holds of
all of them after every call of the transformer.
-/
import TestTransform.Proofs.Compiler.Calls
import TestTransform.Transform.Transformer

namespace TestTransform

namespace World

/-- Whether all engines are miniature compilers. -/
def IsMiniature (w : World) : Prop := ∀ id, (w.engine id).IsMiniature

theorem IsMiniature.of_engines {w w' : World} (h : w.IsMiniature) (he : w'.engines = w.engines) :
    w'.IsMiniature := by
  intro id
  rw [engine, he]
  exact h id

theorem IsMiniature.update {w : World} (h : w.IsMiniature) {s : Surroundings}
    (hs : s.engine.IsMiniature) (id : Nat) : (w.update id s).IsMiniature := by
  intro id'
  have hold := h id'
  rw [engine, List.getD_eq_getElem?_getD] at hold ⊢
  rw [World.update, List.getElem?_set]
  split
  · split
    · exact hs
    · trivial
  · exact hold

end World

namespace IsolatedCompiler

/-- Compiling a text on its own leaves the disk alone. -/
theorem compile_frame {w : Surroundings} (hm : w.engine.IsMiniature) (config : ConfigSet)
    (content : Text) (file : Path) (options : TransformOptions) :
    (compile config content file options w).2.disk = w.disk ∧
      (compile config content file options w).2.engine.IsMiniature := by
  obtain ⟨m, hm'⟩ := hm.exists
  rw [compile]
  split
  · exact ⟨rfl, hm⟩
  · simp only [transpile, hm', Engine.transpile, Surroundings.raise]
    split
    · split <;> exact ⟨rfl, trivial⟩
    · exact ⟨rfl, trivial⟩

end IsolatedCompiler

theorem Compiler.resolvedModulesIn_isolated (w : World) (config : ConfigSet) (source : Text)
    (file : Path) : Compiler.resolvedModulesIn w (.isolated config) source file =
      ([], .isolated config, w.update config.compiler.id (w.surroundings config.compiler.id)) := rfl

namespace LanguageCompiler

/-- A compiler as it works in a world. -/
def sessionIn (w : World) (c : LanguageCompiler) : Session :=
  ⟨c, w.surroundings c.config.compiler.id⟩

theorem resolvedModulesIn_language (w : World) (c : LanguageCompiler) (source : Text) (file : Path) :
    Compiler.resolvedModulesIn w (.language c) source file =
      (((c.sessionIn w).resolvedModules source file).1,
        .language ((c.sessionIn w).resolvedModules source file).2.compiler,
        w.update c.config.compiler.id ((c.sessionIn w).resolvedModules source file).2.world) := rfl

/-- What the calls of a compiler keep: `P` holds of the compiler and `Q` of the disk.  `S` says
which contents are passed for a file. -/
structure CallsKeep (S : Disk → Path → Text → Prop) (Q : Disk → Prop)
    (P : LanguageCompiler → Prop) : Prop where
  compile : ∀ (s : Session) (content : Text) (file : Path) (options : TransformOptions),
    Q s.world.disk → P s.compiler → s.world.engine.IsMiniature → file.normalize = file →
    S s.world.disk file content →
      P (s.compile content file options).2.compiler ∧
        Q (s.compile content file options).2.world.disk ∧
        (s.compile content file options).2.world.engine.IsMiniature
  resolvedModules : ∀ (s : Session) (content : Text) (file : Path),
    Q s.world.disk → P s.compiler → s.world.engine.IsMiniature → file.normalize = file →
    S s.world.disk file content →
      P (s.resolvedModules content file).2.compiler ∧
        Q (s.resolvedModules content file).2.world.disk ∧
        (s.resolvedModules content file).2.world.engine.IsMiniature

end LanguageCompiler

namespace Compiler

/-- Whether a compiler is the one that its configuration asks for and, if it is the
type-checking one, something holds of it. -/
def Satisfies (P : LanguageCompiler → Prop) : Compiler → Prop
  | isolated config => config.isolated = true
  | language c => P c

theorem Satisfies.mono {P P' : LanguageCompiler → Prop} (h : ∀ c, P c → P' c) {c : Compiler}
    (hc : c.Satisfies P) : c.Satisfies P' := by
  cases c with
  | isolated config => exact hc
  | language c => exact h c hc

end Compiler

namespace Transformer

/-- Whether something holds of all type-checking compilers of a transformer. -/
def All (P : LanguageCompiler → Prop) (t : Transformer) : Prop :=
  ∀ c ∈ t.compilers, c.Satisfies P

/-- What a transformer is after it has found a compiler: perhaps with one more, made for
one of the configurations that `who` describes. -/
structure Found (t : Transformer) (w : World) (who : HostConfig → Prop) (t' : Transformer) :
    Prop where
  registry : t'.registry = t.registry
  fallback : t'.fallback = t.fallback
  compilers : t'.compilers = t.compilers ∨
    ∃ host c, who host ∧ t.createCompiler w host = .ok c ∧ t'.compilers = t.compilers ++ [c]

variable {t t' : Transformer} {w : World} {i : Nat}

theorem Found.refl (t : Transformer) (w : World) (who : HostConfig → Prop) : Found t w who t :=
  ⟨rfl, rfl, .inl rfl⟩

theorem Found.mono {who who' : HostConfig → Prop} (f : Found t w who t')
    (h : ∀ host, who host → who' host) : Found t w who' t' :=
  ⟨f.registry, f.fallback, f.compilers.imp_right fun ⟨host, c, hw, hc⟩ => ⟨host, c, h host hw, hc⟩⟩

theorem config_create (view : FileView) (config : ConfigSet) :
    (Compiler.create view config).config = config := by
  rw [Compiler.create]
  split <;> rfl

/-- What is made for a configuration follows from what the project says now. -/
theorem createCompiler_eq_ok {host : HostConfig} {c : Compiler}
    (h : t.createCompiler w host = .ok c) : ∃ codes config,
      environmentCodes w.ignoreCodes = .ok codes ∧
      ConfigSet.build w.view t.registry codes host = .ok config ∧
      c = Compiler.create w.view config := by
  simp only [createCompiler] at h
  cases hcodes : environmentCodes w.ignoreCodes with
  | error e => rw [hcodes] at h; cases h
  | ok codes =>
    rw [hcodes] at h
    cases hconfig : ConfigSet.build w.view t.registry codes host with
    | error e => simp only [bind, Except.bind, hconfig] at h; cases h
    | ok config =>
      simp only [bind, Except.bind, hconfig] at h
      cases h
      exact ⟨codes, config, rfl, hconfig, rfl⟩

theorem found_of_compilerOf {host : HostConfig} (h : t.compilerOf w host = .ok (i, t')) :
    Found t w (· = host) t' := by
  rw [compilerOf] at h
  split at h
  · cases h
    exact Found.refl t w _
  · cases hc : t.createCompiler w host with
    | error e => rw [hc] at h; cases h
    | ok c =>
      rw [hc] at h
      cases h
      exact ⟨rfl, rfl, .inr ⟨host, c, rfl, hc, rfl⟩⟩

theorem found_of_compilerFor {host : LiveHost} (h : t.compilerFor w host = .ok (i, t')) :
    Found t w (· = host.config) t' := by
  rw [compilerFor] at h
  split at h
  · cases h
    exact Found.refl t w _
  · cases hc : t.compilerOf w host.config with
    | error e => rw [hc] at h; cases h
    | ok found =>
      obtain ⟨j, t₁⟩ := found
      have hf := found_of_compilerOf hc
      rw [hc] at h
      cases h
      exact ⟨hf.registry, hf.fallback, hf.compilers⟩

theorem found_of_compilerForText {text : Text} (h : t.compilerForText w text = .ok (i, t')) :
    Found t w (fun host => HostConfig.ofText text = .ok host) t' := by
  rw [compilerForText] at h
  split at h
  · cases h
    exact Found.refl t w _
  · cases hh : HostConfig.ofText text with
    | error e => rw [hh] at h; cases h
    | ok host =>
      rw [hh] at h
      cases hc : t.compilerFor w { config := host } with
      | error e => simp only [bind, Except.bind, hc] at h; cases h
      | ok found =>
        obtain ⟨j, t₁⟩ := found
        have hf : Found t w
            (fun host' => Except.ok host = (.ok host' : Except ConfigError HostConfig)) t₁ :=
          (found_of_compilerFor hc).mono fun _ h => by rw [h]
        simp only [bind, Except.bind, hc] at h
        cases h
        exact ⟨hf.registry, hf.fallback, hf.compilers⟩

section Keep

variable {S : Disk → Path → Text → Prop} {Q : Disk → Prop} {P : LanguageCompiler → Prop}

theorem Found.all {who : HostConfig → Prop} (f : Found t w who t') (ha : All P t)
    (hnew : ∀ host c, who host → t.createCompiler w host = .ok (.language c) → P c) :
    All P t' := by
  intro c hc
  rcases f.compilers with h | ⟨host, c', hw, hc', h⟩
  · exact ha c (h ▸ hc)
  · rw [h, List.mem_append, List.mem_singleton] at hc
    rcases hc with hc | rfl
    · exact ha c hc
    · cases c with
      | language c => exact hnew host c hw hc'
      | isolated config =>
        obtain ⟨codes, config', -, -, hcreate⟩ := createCompiler_eq_ok hc'
        rw [Compiler.create] at hcreate
        split at hcreate
        · cases hcreate
          exact ‹_›
        · cases hcreate

theorem compiler_mem (h : i < t.compilers.length) : t.compiler i ∈ t.compilers := by
  rw [compiler, List.getD_eq_getElem?_getD, List.getElem?_eq_getElem h]
  exact List.getElem_mem h

theorem exists_compiler {c : Compiler} (h : c ∈ t.compilers) :
    ∃ i, i < t.compilers.length ∧ t.compiler i = c := by
  obtain ⟨i, hi, rfl⟩ := List.mem_iff_getElem.mp h
  exact ⟨i, hi, by rw [compiler, List.getD_eq_getElem?_getD, List.getElem?_eq_getElem hi]; rfl⟩

theorem All.language (ha : All P t) {c : LanguageCompiler} (h : t.compiler i = .language c) :
    P c := by
  by_cases hi : i < t.compilers.length
  · have hc := ha _ (compiler_mem hi)
    rwa [h] at hc
  · rw [compiler, List.getD_eq_getElem?_getD, List.getElem?_eq_none (Nat.not_lt.mp hi)] at h
    cases h

theorem All.setCompiler (ha : All P t) {c : Compiler}
    (hc : i < t.compilers.length → c.Satisfies P) : All P (t.setCompiler i c) := by
  intro c' h
  by_cases hi : i < t.compilers.length
  · rcases List.mem_or_eq_of_mem_set h with h | rfl
    · exact ha c' h
    · exact hc hi
  · rw [Transformer.setCompiler, List.set_eq_of_length_le (Nat.not_lt.mp hi)] at h
    exact ha c' h

/-- A compiler for isolated modules is put back as it was. -/
theorem All.setCompiler_isolated (ha : All P t) {c : ConfigSet} (h : t.compiler i = .isolated c) :
    All P (t.setCompiler i (.isolated c)) :=
  ha.setCompiler fun hi => h ▸ ha _ (compiler_mem hi)

/-- What holds of a transformer and its world between calls. -/
structure Fine (Q : Disk → Prop) (P : LanguageCompiler → Prop) (t : Transformer) (w : World) :
    Prop where
  all : All P t
  miniature : w.IsMiniature
  disk : Q w.disk

theorem Fine.of_disk (f : Fine Q P t w) {w' : World} (hd : w'.disk = w.disk)
    (he : w'.engines = w.engines) : Fine Q P t w' :=
  ⟨f.all, f.miniature.of_engines he, hd ▸ f.disk⟩

theorem keyOf_fine (k : LanguageCompiler.CallsKeep S Q P) (f : Fine Q P t w) {source : Text}
    {file : Path} (options : TransformOptions) (hf : file.normalize = file)
    (hs : S w.disk file source) :
    Fine Q P (t.keyOf w i source file options).2.1 (t.keyOf w i source file options).2.2 := by
  cases hc : t.compiler i with
  | isolated config =>
    simp only [keyOf, hc, Compiler.resolvedModulesIn, Compiler.resolvedModules]
    exact ⟨f.all.setCompiler_isolated hc, f.miniature.update (f.miniature _) _, f.disk⟩
  | language c =>
    have hp := f.all.language hc
    obtain ⟨hp', hq', hm'⟩ := k.resolvedModules (c.sessionIn w) source file f.disk hp
      (f.miniature _) hf hs
    simp only [keyOf, hc, Compiler.resolvedModulesIn, Compiler.resolvedModules]
    exact ⟨f.all.setCompiler fun _ => hp', f.miniature.update hm' _, hq'⟩

theorem translate_fine (k : LanguageCompiler.CallsKeep S Q P) (f : Fine Q P t w) {source : Text}
    {file : Path} (options : TransformOptions) (hf : file.normalize = file)
    (hs : S w.disk file source) :
    Fine Q P (t.translate w i source file options).2.1
      (t.translate w i source file options).2.2 := by
  have hcompile : Fine Q P
      (t.setCompiler i ((t.compiler i).compileIn w source file options).2.1)
      ((t.compiler i).compileIn w source file options).2.2 := by
    cases hc : t.compiler i with
    | isolated config =>
      obtain ⟨hd, hm⟩ := IsolatedCompiler.compile_frame (w := w.surroundings config.compiler.id)
        (f.miniature _) config source file options
      refine ⟨f.all.setCompiler_isolated hc, f.miniature.update hm _, ?_⟩
      have hdisk := f.disk
      rwa [show w.disk = _ from hd.symm] at hdisk
    | language c =>
      have hp := f.all.language hc
      obtain ⟨hp', hq', hm'⟩ := k.compile (c.sessionIn w) source file options f.disk hp
        (f.miniature _) hf hs
      exact ⟨f.all.setCompiler fun _ => hp', f.miniature.update hm' _, hq'⟩
  rw [translate]
  dsimp only
  split
  · exact hcompile
  · split
    · exact hcompile
    · exact f.of_disk rfl rfl
  · exact f.of_disk rfl rfl

theorem transform_fine (k : LanguageCompiler.CallsKeep S Q P) (f : Fine Q P t w) {source : Text}
    {file : Path} (options : TransformOptions) (hf : file.normalize = file)
    (hs : S w.disk file source) :
    Fine Q P (t.transform w i source file options).2.1
      (t.transform w i source file options).2.2 := by
  have ht := translate_fine (i := i) k f options hf hs
  rw [transform]
  dsimp only
  split
  · exact f
  · split
    · exact f
    · split <;> rename_i heq <;> rw [heq] at ht
      · exact ht
      · rw [handOn]
        split
        · exact ht
        · exact ht.of_disk rfl rfl

theorem resolve_normal (base p : Path) : (base.resolve p).normalize = base.resolve p := by
  rw [Path.resolve]
  split <;> exact Path.normalize_normalize _

end Keep

end Transformer
end TestTransform

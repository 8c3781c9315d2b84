/-
Where the compilers of a transformer come from.

Whatever is asked of a transformer, each of its compilers was made for a configuration set that
was built, and is of the kind that this asks for.  Finding one leads to a compiler that is there.
-/
import TestTransform.Proofs.Transform.Catalogue

namespace TestTransform

/-- Whether a compiler is a type-checking one that has been made and called. -/
def LanguageCompiler.IsTypeChecking (c : LanguageCompiler) : Prop :=
  c.IsReached ∧ c.config.isolated = false

namespace Compiler

/-- A compiler is for isolated modules if its configuration set says so. -/
theorem Satisfies.eq_isolated {c : Compiler} (h : c.Satisfies LanguageCompiler.IsTypeChecking)
    (hisolated : c.config.isolated = true) : c = .isolated c.config := by
  cases c with
  | isolated config => rfl
  | language c =>
    rw [Compiler.config, h.2] at hisolated
    cases hisolated

theorem Satisfies.compileIn {c : Compiler} (h : c.Satisfies LanguageCompiler.IsTypeChecking)
    (w : World) (content : Text) (file : Path) (options : TransformOptions) :
    (c.compileIn w content file options).2.1.Satisfies LanguageCompiler.IsTypeChecking := by
  have hconfig := Transformer.config_compileIn_of_reached (h.mono fun _ hc => hc.1) w content file
    options
  cases c with
  | isolated config => exact h
  | language c =>
    exact ⟨LanguageCompiler.IsReached.compile h.1 _ content file options,
      (congrArg ConfigSet.isolated hconfig).trans h.2⟩

theorem Satisfies.resolvedModulesIn {c : Compiler}
    (h : c.Satisfies LanguageCompiler.IsTypeChecking) (w : World) (content : Text) (file : Path) :
    (c.resolvedModulesIn w content file).2.1.Satisfies LanguageCompiler.IsTypeChecking := by
  have hconfig := Transformer.config_resolvedModulesIn_of_reached (h.mono fun _ hc => hc.1) w
    content file
  cases c with
  | isolated config => exact h
  | language c =>
    exact ⟨LanguageCompiler.IsReached.resolvedModules h.1 _ content file,
      (congrArg ConfigSet.isolated hconfig).trans h.2⟩

end Compiler

namespace Transformer

variable {t t' : Transformer} {w : World} {i : Nat}

/-- The transformers that calls lead to, with whatever hosts are passed and however the world
changes between them. -/
inductive Called : Transformer → World → Prop where
  | start (registry : CompilerRegistry) (fallback : Option Fallback) (w : World) :
      Called { registry, fallback } w
  | change {t : Transformer} {w : World} (w' : World) : Called t w → Called t w'
  | call {t : Transformer} {w : World} (c : Call) : Called t w →
      Called (c.after t w).1 (c.after t w).2

/-- What holds of the compilers of a transformer, and of the numbers under which they are
found. -/
structure Made (t : Transformer) : Prop where
  texts : ∀ text i, t.indexOf? text = some i → i < t.compilers.length
  slots : ∀ slot ∈ t.live, slot.2 < t.compilers.length
  all : All LanguageCompiler.IsTypeChecking t
  built : ∀ c ∈ t.compilers, ∃ view registry codes host,
    ConfigSet.build view registry codes host = .ok c.config

theorem made_new (registry : CompilerRegistry) (fallback : Option Fallback) :
    Made { registry, fallback } where
  texts text i h := by cases h
  slots slot h := by cases h
  all c h := by cases h
  built c h := by cases h

/-! ## Changes -/

theorem Made.rememberText (x : Made t) (hi : i < t.compilers.length) (text : Text) :
    Made (t.rememberText text i) where
  texts text' j hj := by
    rw [indexOf?_rememberText] at hj
    split at hj
    · cases hj
      exact hi
    · exact x.texts text' j hj
  slots := x.slots
  all := x.all
  built := x.built

theorem Made.occupy (x : Made t) (hi : i < t.compilers.length) (host : LiveHost) :
    Made { t with live := Transformer.occupy host i t.live } where
  texts := x.texts
  slots slot hslot := by
    rcases mem_occupy hslot with rfl | hslot
    · exact hi
    · exact x.slots slot hslot
  all := x.all
  built := x.built

/-- A compiler is put back with the configuration that it had. -/
theorem Made.setCompiler (x : Made t) (hi : i < t.compilers.length) {c : Compiler}
    (hc : c.Satisfies LanguageCompiler.IsTypeChecking) (hconfig : c.config = (t.compiler i).config) :
    Made (t.setCompiler i c) where
  texts text j hj := by
    rw [Transformer.setCompiler, List.length_set]
    exact x.texts text j hj
  slots slot hslot := by
    rw [Transformer.setCompiler, List.length_set]
    exact x.slots slot hslot
  all := x.all.setCompiler fun _ => hc
  built d hd := by
    rcases List.mem_or_eq_of_mem_set hd with hd | rfl
    · exact x.built d hd
    · rw [hconfig]
      exact x.built _ (compiler_mem hi)

theorem create_satisfies (w : World) (config : ConfigSet) :
    (Compiler.create w.view config).Satisfies LanguageCompiler.IsTypeChecking := by
  rw [Compiler.create]
  split
  · exact ‹_›
  · rename_i hmode
    exact ⟨fun world => .create w.view world, Bool.eq_false_iff.mpr hmode⟩

/-- A compiler is made for a configuration that was built. -/
theorem Made.append (x : Made t) {host : HostConfig} {c : Compiler}
    (hc : t.createCompiler w host = .ok c) : Made { t with compilers := t.compilers ++ [c] } := by
  have hlength : ∀ {j}, j < t.compilers.length →
      j < ({ t with compilers := t.compilers ++ [c] } : Transformer).compilers.length := by
    intro j hj
    rw [List.length_append]
    exact Nat.lt_add_right _ hj
  obtain ⟨codes, config, -, hbuild, rfl⟩ := createCompiler_eq_ok hc
  refine ⟨fun text j hj => hlength (x.texts text j hj), fun slot hs => hlength (x.slots slot hs),
    fun d hd => ?_, fun d hd => ?_⟩
  · rcases List.mem_append.mp hd with hd | hd
    · exact x.all d hd
    · rw [List.mem_singleton.mp hd]
      exact create_satisfies w config
  · rcases List.mem_append.mp hd with hd | hd
    · exact x.built d hd
    · rw [List.mem_singleton.mp hd, config_create]
      exact ⟨_, _, _, _, hbuild⟩

/-! ## Calls -/

theorem compilerOf_made (x : Made t) {host : HostConfig} (h : t.compilerOf w host = .ok (i, t')) :
    Made t' ∧ i < t'.compilers.length := by
  rw [compilerOf] at h
  split at h
  · rename_i j hj
    cases h
    exact ⟨x, x.texts _ _ hj⟩
  · cases hc : t.createCompiler w host with
    | error e => rw [hc] at h; cases h
    | ok c =>
      rw [hc] at h
      cases h
      have hlength : t.compilers.length <
          ({ t with compilers := t.compilers ++ [c] } : Transformer).compilers.length := by
        rw [List.length_append]
        exact Nat.lt_succ_self _
      exact ⟨(x.append hc).rememberText hlength _, hlength⟩

theorem compilerFor_made (x : Made t) {host : LiveHost} (h : t.compilerFor w host = .ok (i, t')) :
    Made t' ∧ i < t'.compilers.length := by
  rw [compilerFor] at h
  split at h
  · rename_i slot hslot
    cases h
    exact ⟨x, x.slots slot (List.mem_of_find?_eq_some hslot)⟩
  · cases hc : t.compilerOf w host.config with
    | error e => rw [hc] at h; cases h
    | ok found =>
      obtain ⟨j, t₁⟩ := found
      rw [hc] at h
      cases h
      obtain ⟨hx, hi⟩ := compilerOf_made x hc
      exact ⟨hx.occupy hi host, hi⟩

theorem compilerForText_made (x : Made t) {text : Text}
    (h : t.compilerForText w text = .ok (i, t')) : Made t' ∧ i < t'.compilers.length := by
  rw [compilerForText] at h
  split at h
  · rename_i j hj
    cases h
    exact ⟨x, x.texts _ _ hj⟩
  · cases htext : HostConfig.ofText text with
    | error e => rw [htext] at h; cases h
    | ok host =>
      rw [htext] at h
      cases hc : t.compilerFor w { config := host } with
      | error e => simp only [bind, Except.bind, hc] at h; cases h
      | ok found =>
        obtain ⟨j, t₁⟩ := found
        simp only [bind, Except.bind, hc] at h
        cases h
        obtain ⟨hx, hi⟩ := compilerFor_made x hc
        exact ⟨hx.rememberText hi text, hi⟩

theorem find_made (x : Made t) {a : HostArgument} (h : t.find w a = .ok (i, t')) :
    Made t' ∧ i < t'.compilers.length := by
  cases a with
  | live host => exact compilerFor_made x h
  | text text => exact compilerForText_made x h

/-- What a call does once it has a compiler. -/
theorem after_made {c : Call} (hfound : t.find w c.argument = .ok (i, t')) (x : Made t')
    (hi : i < t'.compilers.length) : Made (c.after t w).1 := by
  have hc := x.all _ (compiler_mem hi)
  have hreached := hc.mono fun _ h => h.1
  cases c with
  | configSet host =>
    have hfind : t.compilerFor w host = .ok (i, t') := hfound
    rw [Call.after, configSet, hfind]
    exact x
  | process r host =>
    have hfind : t.find w (.live host) = .ok (i, t') := hfound
    rw [Call.after, process_eq, hfind]
    dsimp only
    rcases transform_cases t' w i r.source ((t'.compiler i).config.rootDir.resolve r.path)
      r.options with heq | heq
    · rw [heq]
      exact x
    · rw [heq]
      exact x.setCompiler hi (hc.compileIn ..) (config_compileIn_of_reached hreached ..)
  | key r a =>
    have hfind : t.find w a = .ok (i, t') := hfound
    rw [Call.after, key_eq_of_ok r hfind]
    exact x.setCompiler hi (hc.resolvedModulesIn ..) (config_resolvedModulesIn_of_reached hreached ..)

theorem Called.made (h : Called t w) : Made t := by
  induction h with
  | start registry fallback w => exact made_new registry fallback
  | change w' _ ih => exact ih
  | @call t w c _ ih =>
    cases hfind : t.find w c.argument with
    | error e =>
      rw [after_of_find_error hfind]
      exact ih
    | ok found =>
      obtain ⟨hx, hi⟩ := find_made ih hfind
      exact after_made hfind hx hi

end Transformer
end TestTransform

/-
Configuration sets that are up to date.

A transformer keeps the configuration set that it has set up for a configuration, whatever
becomes of the project's configuration files.  As long as these set up the same, what it keeps
is what it would set up again: a new transformer has nothing that could be out of date, and a
call adds only what is set up then.
-/
import TestTransform.Proofs.Transform.Catalogue

namespace TestTransform
namespace Transformer

variable {held : Nat → HostConfig} {t t' : Transformer} {w w' : World} {i : Nat}

/-! ## Setting up -/

/-- Whether a configuration set is the one that is set up for a configuration in a world. -/
def SetsUp (t : Transformer) (w : World) (h : HostConfig) (c : ConfigSet) : Prop :=
  ∃ codes, environmentCodes w.ignoreCodes = .ok codes ∧
    ConfigSet.build w.view t.registry codes h = .ok c

theorem SetsUp.unique {h : HostConfig} {c d : ConfigSet} (hc : SetsUp t w h c)
    (hd : SetsUp t w h d) : c = d := by
  obtain ⟨codes, hcodes, hbuild⟩ := hc
  obtain ⟨codes', hcodes', hbuild'⟩ := hd
  rw [hcodes] at hcodes'
  cases hcodes'
  rw [hbuild] at hbuild'
  exact Except.ok.inj hbuild'

theorem SetsUp.of_registry {h : HostConfig} {c : ConfigSet} (hc : SetsUp t w h c)
    (hregistry : t'.registry = t.registry) : SetsUp t' w h c := by
  obtain ⟨codes, hcodes, hbuild⟩ := hc
  exact ⟨codes, hcodes, by rw [hregistry, hbuild]⟩

/-- Whether the set that a transformer has for a configuration is the one that it would set up
in a world. -/
def IsCurrent (t : Transformer) (w : World) (a : HostArgument) : Prop :=
  ∀ h, a.config = .ok h → ∀ c ∈ t.configFor? w a, SetsUp t w h c

/-! ## New transformers -/

/-- Whether a transformer has not been used. -/
structure IsNew (t : Transformer) : Prop where
  compilers : t.compilers = []
  live : t.live = []
  texts : t.texts = []

theorem isNew (registry : CompilerRegistry) (fallback : Option Fallback) :
    IsNew { registry, fallback } :=
  ⟨rfl, rfl, rfl⟩

/-- A new transformer that has what another one was given. -/
def anew (t : Transformer) : Transformer := { registry := t.registry, fallback := t.fallback }

/-- The compiler that a new transformer makes for a configuration. -/
structure Makes (t : Transformer) (w : World) (h : HostConfig) (c : ConfigSet) (i : Nat)
    (t' : Transformer) : Prop where
  setUp : SetsUp t w h c
  compiler : t'.compiler i = Compiler.create w.view c
  fallback : t'.fallback = t.fallback

theorem Makes.config {h : HostConfig} {c : ConfigSet} (m : Makes t w h c i t') :
    (t'.compiler i).config = c := by
  rw [m.compiler, config_create]

theorem IsNew.compilerOf (hnew : t.IsNew) {h : HostConfig}
    (hfound : t.compilerOf w h = .ok (i, t')) : ∃ c, Makes t w h c i t' := by
  rw [Transformer.compilerOf, hnew.texts] at hfound
  cases hc : t.createCompiler w h with
  | error e =>
    simp only [Assoc.find?, hc] at hfound
    cases hfound
  | ok made =>
    simp only [Assoc.find?, hc] at hfound
    cases hfound
    obtain ⟨codes, c, hcodes, hbuild, rfl⟩ := createCompiler_eq_ok hc
    refine ⟨c, ⟨codes, hcodes, hbuild⟩, ?_, rfl⟩
    simp [compiler, rememberText, hnew.compilers]

theorem IsNew.compilerFor (hnew : t.IsNew) {host : LiveHost}
    (hfound : t.compilerFor w host = .ok (i, t')) : ∃ c, Makes t w host.config c i t' := by
  rw [Transformer.compilerFor, hnew.live] at hfound
  cases hc : t.compilerOf w host.config with
  | error e =>
    simp only [List.find?_nil, hc] at hfound
    cases hfound
  | ok found =>
    obtain ⟨j, t₁⟩ := found
    simp only [List.find?_nil, hc] at hfound
    cases hfound
    obtain ⟨c, m⟩ := hnew.compilerOf hc
    exact ⟨c, m.setUp, m.compiler, m.fallback⟩

theorem IsNew.find (hnew : t.IsNew) {a : HostArgument} (hfound : t.find w a = .ok (i, t')) :
    ∃ h c, a.config = .ok h ∧ Makes t w h c i t' := by
  cases a with
  | live host =>
    obtain ⟨c, m⟩ := hnew.compilerFor hfound
    exact ⟨host.config, c, rfl, m⟩
  | text text =>
    replace hfound : t.compilerForText w text = .ok (i, t') := hfound
    rw [compilerForText, hnew.texts] at hfound
    cases htext : HostConfig.ofText text with
    | error e =>
      simp only [Assoc.find?, htext] at hfound
      cases hfound
    | ok h =>
      cases hc : t.compilerFor w { config := h } with
      | error e =>
        simp only [Assoc.find?, htext, bind, Except.bind, hc] at hfound
        cases hfound
      | ok found =>
        obtain ⟨j, t₁⟩ := found
        simp only [Assoc.find?, htext, bind, Except.bind, hc] at hfound
        cases hfound
        obtain ⟨c, m⟩ := hnew.compilerFor hc
        exact ⟨h, c, htext, m.setUp, m.compiler, m.fallback⟩

theorem IsNew.isCurrent (hnew : t.IsNew) (w : World) (a : HostArgument) : t.IsCurrent w a := by
  intro h ha c hc
  cases hfind : t.find w a with
  | error e =>
    rw [configFor?, hfind] at hc
    cases hc
  | ok found =>
    obtain ⟨i, t'⟩ := found
    obtain ⟨h', d, ha', m⟩ := hnew.find hfind
    rw [ha] at ha'
    cases ha'
    rw [configFor?_of_find hfind, m.config] at hc
    cases hc
    exact m.setUp

/-! ## Transformers that have been used -/

/-- Whether two worlds set up the same for every configuration. -/
structure SetsUpAlike (w w' : World) : Prop where
  ignoreCodes : w.ignoreCodes = w'.ignoreCodes
  build : ∀ registry codes h,
    ConfigSet.build w.view registry codes h = ConfigSet.build w'.view registry codes h

theorem SetsUpAlike.refl (w : World) : SetsUpAlike w w := ⟨rfl, fun _ _ _ => rfl⟩

/-- The transformers that have been called in worlds that set up the same as `w`, with
configurations that are read back from their texts. -/
inductive UsedIn (held : Nat → HostConfig) (w : World) : Transformer → Prop where
  | start (registry : CompilerRegistry) (fallback : Option Fallback) :
      UsedIn held w { registry, fallback }
  | call {t : Transformer} {w' : World} (c : Call) : UsedIn held w t → SetsUpAlike w' w →
      c.argument.IsHeld held → c.argument.IsReadable → UsedIn held w (c.after t w').1

/-- Whether a set is the one that is set up for its own configuration, which is read back from
its text. -/
structure UpToDate (t : Transformer) (w : World) (c : ConfigSet) : Prop where
  setsUp : SetsUp t w c.host c
  read : HostConfig.ofText c.host.canonical = .ok c.host

theorem UpToDate.of_registry {c : ConfigSet} (h : UpToDate t w c)
    (hregistry : t'.registry = t.registry) : UpToDate t' w c :=
  ⟨h.setsUp.of_registry hregistry, h.read⟩

/-- A compiler that is made for a request is up to date, and the others stay so. -/
theorem upToDate_of_find (halike : SetsUpAlike w' w)
    (hsets : ∀ c ∈ t.compilers, UpToDate t w c.config) {a : HostArgument} (hread : a.IsReadable)
    (hfind : t.find w' a = .ok (i, t')) : ∀ c ∈ t'.compilers, UpToDate t' w c.config := by
  have hfound := found_of_find hfind
  intro c hc
  refine UpToDate.of_registry ?_ hfound.registry
  rcases hfound.compilers with heq | ⟨h, made, hh, hmade, heq⟩
  · rw [heq] at hc
    exact hsets c hc
  · rw [heq] at hc
    rcases List.mem_append.mp hc with hc | hc
    · exact hsets c hc
    · rw [List.mem_singleton.mp hc]
      obtain ⟨codes, d, hcodes, hbuild, hcreate⟩ := createCompiler_eq_ok hmade
      have hconfig : made.config = d := by rw [hcreate, config_create]
      have hhost : d.host = h := ConfigSet.host_of_build hbuild
      rw [halike.ignoreCodes] at hcodes
      rw [halike.build] at hbuild
      rw [hconfig]
      exact ⟨⟨codes, hcodes, by rw [hhost, hbuild]⟩, by
        rw [hhost]
        exact hread.ofText_canonical hh⟩

theorem UsedIn.upToDate (h : UsedIn held w t) :
    Ordered held t ∧ ∀ c ∈ t.compilers, UpToDate t w c.config := by
  induction h with
  | start registry fallback => exact ⟨ordered_new registry fallback, fun c hc => by cases hc⟩
  | @call t w' c _ halike hheld hread ih =>
    obtain ⟨hordered, hsets⟩ := ih
    cases hfind : t.find w' c.argument with
    | error e =>
      rw [after_of_find_error hfind]
      exact ⟨hordered, hsets⟩
    | ok found =>
      obtain ⟨i, t'⟩ := found
      obtain ⟨h, hh, f⟩ := find_finds hordered hheld hread hfind
      obtain ⟨hordered', hworked⟩ := after_ordered hfind f.ordered f.index
      refine ⟨hordered', fun d hd => ?_⟩
      obtain ⟨j, hj, rfl⟩ := exists_compiler hd
      rw [hworked.length] at hj
      rw [hworked.configs j]
      exact (upToDate_of_find halike hsets hread hfind _ (compiler_mem hj)).of_registry
        hworked.registry

/-- As long as a world sets up the same, the sets of a transformer are current there. -/
theorem UsedIn.isCurrent (hused : UsedIn held w t) {a : HostArgument} (hheld : a.IsHeld held)
    (hread : a.IsReadable) : t.IsCurrent w a := by
  obtain ⟨hordered, hsets⟩ := hused.upToDate
  intro h hh c hc
  cases hfind : t.find w a with
  | error e =>
    rw [configFor?, hfind] at hc
    cases hc
  | ok found =>
    obtain ⟨i, t'⟩ := found
    obtain ⟨h', hh', f⟩ := find_finds hordered hheld hread hfind
    rw [hh] at hh'
    cases hh'
    rw [configFor?_of_find hfind] at hc
    cases hc
    have hset := upToDate_of_find (.refl w) hsets hread hfind _ (compiler_mem f.index)
    -- One text is read back as the configuration of the compiler and as the one asked for.
    have htext : (t'.compiler i).config.host.canonical = h.canonical := f.text
    have hhost : (t'.compiler i).config.host = h := by
      have hback := hset.read
      rw [htext, hread.ofText_canonical hh] at hback
      exact (Except.ok.inj hback).symm
    have hsetUp := hset.setsUp
    rw [hhost] at hsetUp
    exact hsetUp.of_registry (found_of_find hfind).registry.symm

end Transformer
end TestTransform

/-
One compiler for each configuration.

A transformer finds a compiler by the host that holds a configuration or by a text, and the
texts are those that stand for configurations together with those that were passed.  Each text
in the catalogue is read as a configuration of the compiler that it leads to, and the text that
stands for the configuration of a compiler leads to that compiler.  So requests share a
compiler exactly if the same text stands for their configurations, in whatever order and
spelling these come up.
-/
import TestTransform.Proofs.Host.Reread
import TestTransform.Proofs.Transform.Reached

namespace TestTransform

/-! ## Requests -/

/-- A call of a transformer that asks for the compiler of a configuration. -/
inductive Call where
  | configSet (host : LiveHost)
  | process (r : Request) (host : LiveHost)
  | key (r : Request) (a : HostArgument)

namespace Call

/-- How a call names its configuration. -/
def argument : Call → HostArgument
  | configSet host => .live host
  | process _ host => .live host
  | key _ a => a

/-- The transformer and the world after a call. -/
def after (t : Transformer) (w : World) : Call → Transformer × World
  | configSet host => ((t.configSet w host).2, w)
  | process r host => (t.process w r.source r.path host r.options).2
  | key r a => (t.key w r a).2

end Call

/-- Whether the configuration of a request is one that the program can hold and that is read
back from its own text.  What is read from a text is sorted and shallow anyway. -/
def HostArgument.IsReadable : HostArgument → Prop
  | live host => host.config.IsProper ∧ host.config.IsShallow ∧ host.config.FloatsReread
  | text t => ∀ h, HostConfig.ofText t = .ok h → h.FloatsReread

theorem HostArgument.IsReadable.ofText_canonical {a : HostArgument} (ha : a.IsReadable)
    {h : HostConfig} (hh : a.config = .ok h) : HostConfig.ofText h.canonical = .ok h := by
  cases a with
  | live host =>
    cases hh
    exact HostConfig.ofText_canonical ha.1 ha.2.1 ha.2.2
  | text t =>
    obtain ⟨hproper, hshallow⟩ := HostConfig.of_ofText hh
    exact HostConfig.ofText_canonical hproper hshallow (ha h hh)

/-- What is read from a text can be passed as it is held. -/
theorem HostArgument.isReadable_of_ofText {text : Text} {h : HostConfig}
    (hread : HostConfig.ofText text = .ok h) (hfloats : h.FloatsReread) (id : Option Nat) :
    (HostArgument.live ⟨id, h⟩).IsReadable := by
  obtain ⟨hproper, hshallow⟩ := HostConfig.of_ofText hread
  exact ⟨hproper, hshallow, hfloats⟩

namespace Transformer

/-- A request that was served: how it named its configuration, which compiler it got, and the
configuration set of that compiler. -/
structure Served where
  argument : HostArgument
  index : Nat
  config : ConfigSet

/-- What is noted of a call.  It is a request that was served once there is a compiler for it,
whatever comes of the work. -/
def served? (t : Transformer) (w : World) (c : Call) : Option Served :=
  match t.find w c.argument with
  | .ok (i, t') => some ⟨c.argument, i, (t'.compiler i).config⟩
  | .error _ => none

/-- The histories of a transformer, with the requests that were served.  The calls come in any
order, and the world may change in any way between them.  `held` are the configurations that
hosts hold. -/
inductive History (held : Nat → HostConfig) : Transformer → World → List Served → Prop where
  | start (registry : CompilerRegistry) (fallback : Option Fallback) (w : World) :
      History held { registry, fallback } w []
  | change {t : Transformer} {w : World} {log : List Served} (w' : World) :
      History held t w log → History held t w' log
  | call {t : Transformer} {w : World} {log : List Served} (c : Call) : History held t w log →
      c.argument.IsHeld held → c.argument.IsReadable →
      History held (c.after t w).1 (c.after t w).2 (log ++ (t.served? w c).toList)

variable {held : Nat → HostConfig} {t t' : Transformer} {w : World} {i j : Nat}

/-- A request for which no compiler is found leaves everything as it was. -/
theorem after_of_find_error {c : Call} {e : ConfigError} (h : t.find w c.argument = .error e) :
    c.after t w = (t, w) := by
  cases c with
  | configSet host =>
    have hfind : t.compilerFor w host = .error e := h
    rw [Call.after, configSet, hfind]
  | process r host =>
    have hfind : t.find w (.live host) = .error e := h
    rw [Call.after, process_eq, hfind]
  | key r a =>
    have hfind : t.find w a = .error e := h
    rw [Call.after, key_eq_of_error r hfind]

/-! ## The catalogue -/

/-- The text that stands for the configuration of a compiler. -/
def textOf (t : Transformer) (i : Nat) : Text := (t.compiler i).config.host.canonical

/-- Whether the catalogue of a transformer is in order. -/
structure Ordered (held : Nat → HostConfig) (t : Transformer) : Prop where
  texts : ∀ text i, t.indexOf? text = some i → i < t.compilers.length ∧
    ∃ h, HostConfig.ofText text = .ok h ∧ h.canonical = t.textOf i
  /-- Each compiler is found by the text of its own configuration. -/
  own : ∀ i, i < t.compilers.length → t.indexOf? (t.textOf i) = some i
  slots : ∀ s ∈ t.live, (∀ n, s.1.id = some n → s.1.config = held n) ∧
    s.2 < t.compilers.length ∧ s.1.config.canonical = t.textOf s.2
  apart : t.live.Pairwise fun s s' => s.2 ≠ s'.2
  reached : All LanguageCompiler.IsReached t

theorem ordered_new (registry : CompilerRegistry) (fallback : Option Fallback) :
    Ordered held { registry, fallback } where
  texts text i h := by cases h
  own i h := by cases h
  slots s h := by cases h
  apart := .nil
  reached c h := by cases h

/-- The text of a configuration tells its compiler from all others. -/
theorem Ordered.eq_of_textOf (x : Ordered held t) (hi : i < t.compilers.length)
    (hj : j < t.compilers.length) (h : t.textOf i = t.textOf j) : i = j := by
  have hown := x.own i hi
  rw [h, x.own j hj] at hown
  exact (Option.some.inj hown).symm

/-- Whether the compilers there were are there with the configurations that they had. -/
structure Extends (t t' : Transformer) : Prop where
  length : t.compilers.length ≤ t'.compilers.length
  configs : ∀ i, i < t.compilers.length → (t'.compiler i).config = (t.compiler i).config

theorem Extends.refl (t : Transformer) : Extends t t := ⟨Nat.le_refl _, fun _ _ => rfl⟩

theorem Extends.trans {t₁ t₂ t₃ : Transformer} (h : Extends t₁ t₂) (h' : Extends t₂ t₃) :
    Extends t₁ t₃ :=
  ⟨h.length.trans h'.length, fun i hi =>
    (h'.configs i (hi.trans_le h.length)).trans (h.configs i hi)⟩

/-- Work leaves the compilers where they are. -/
theorem Worked.extends {w w' : World} (h : Worked t w t' w') : Extends t t' :=
  ⟨h.length.ge, fun i _ => h.configs i⟩

theorem Extends.textOf (h : Extends t t') (hi : i < t.compilers.length) :
    t'.textOf i = t.textOf i := by
  rw [Transformer.textOf, h.configs i hi, Transformer.textOf]

/-- A compiler that was found: the catalogue is in order, and the compiler is that of the
configuration. -/
structure Finds (held : Nat → HostConfig) (t t' : Transformer) (i : Nat) (h : HostConfig) :
    Prop where
  ordered : Ordered held t'
  more : Extends t t'
  index : i < t'.compilers.length
  text : t'.textOf i = h.canonical

section Changes

/-- A compiler is made and remembered under the text of its configuration. -/
theorem Ordered.made (x : Ordered held t) {h : HostConfig} {c : Compiler}
    (hnone : t.indexOf? h.canonical = none) (hread : HostConfig.ofText h.canonical = .ok h)
    (hhost : c.config.host = h) (hc : c.Satisfies LanguageCompiler.IsReached) :
    Finds held t (({ t with compilers := t.compilers ++ [c] } : Transformer).rememberText
      h.canonical t.compilers.length) t.compilers.length h := by
  generalize ht' : ({ t with compilers := t.compilers ++ [c] } : Transformer).rememberText
    h.canonical t.compilers.length = t'
  have hlength : t'.compilers.length = t.compilers.length + 1 := by
    rw [← ht']
    simp [Transformer.rememberText]
  have hold : ∀ i, i < t.compilers.length → t'.compiler i = t.compiler i := by
    intro i hi
    rw [← ht']
    simp only [compiler, Transformer.rememberText, List.getD_eq_getElem?_getD,
      List.getElem?_append_left hi]
  have hnew : t'.compiler t.compilers.length = c := by
    rw [← ht']
    simp [compiler, Transformer.rememberText, List.getD_eq_getElem?_getD]
  have hindex : ∀ text, t'.indexOf? text =
      if text = h.canonical then some t.compilers.length else t.indexOf? text := by
    intro text
    rw [← ht', indexOf?_rememberText]
    rfl
  have htext : ∀ i, i < t.compilers.length → t'.textOf i = t.textOf i := by
    intro i hi
    rw [textOf, hold i hi, textOf]
  have hlast : t'.textOf t.compilers.length = h.canonical := by
    rw [textOf, hnew, hhost]
  refine ⟨⟨?_, ?_, ?_, ?_, ?_⟩, ⟨by omega, fun i hi => by rw [hold i hi]⟩, by omega, hlast⟩
  · intro text i hi
    rw [hindex] at hi
    split at hi
    · rename_i heq
      cases hi
      exact ⟨by omega, h, by rw [heq, hread], hlast.symm⟩
    · obtain ⟨hlt, k, hk, hcanonical⟩ := x.texts text i hi
      exact ⟨by omega, k, hk, by rw [hcanonical, htext i hlt]⟩
  · intro i hi
    by_cases hlt : i < t.compilers.length
    · have hne : t.textOf i ≠ h.canonical := by
        intro heq
        rw [← heq, x.own i hlt] at hnone
        cases hnone
      rw [htext i hlt, hindex, if_neg hne, x.own i hlt]
    · have heq : i = t.compilers.length := by omega
      rw [heq, hlast, hindex, if_pos rfl]
  · intro s hs
    have hs' : s ∈ t.live := by
      rw [← ht'] at hs
      exact hs
    obtain ⟨hheld, hlt, hcanonical⟩ := x.slots s hs'
    exact ⟨hheld, by omega, by rw [hcanonical, htext _ hlt]⟩
  · rw [← ht']
    exact x.apart
  · intro d hd
    rw [← ht'] at hd
    rcases List.mem_append.mp hd with hd | hd
    · exact x.reached d hd
    · rw [List.mem_singleton.mp hd]
      exact hc

/-- Another spelling of a configuration is remembered for its compiler. -/
theorem Ordered.rememberText (x : Ordered held t) {text : Text} {h : HostConfig}
    (htext : HostConfig.ofText text = .ok h) (hi : i < t.compilers.length)
    (hh : t.textOf i = h.canonical) : Ordered held (t.rememberText text i) where
  texts text' j hj := by
    rw [indexOf?_rememberText] at hj
    split at hj
    · rename_i heq
      cases hj
      exact ⟨hi, h, by rw [heq, htext], hh.symm⟩
    · exact x.texts text' j hj
  own j hj := by
    rw [indexOf?_rememberText]
    split
    · rename_i heq
      -- The text of `j` is read as a configuration with that text, so it is that of `i` too.
      have heq' : t.textOf j = text := heq
      obtain ⟨-, k, hk, hcanonical⟩ := x.texts _ _ (x.own j hj)
      rw [heq', htext] at hk
      cases hk
      rw [x.eq_of_textOf hi hj (by rw [hh, hcanonical])]
    · exact x.own j hj
  slots := x.slots
  apart := x.apart
  reached := x.reached

theorem occupy_apart {host : LiveHost} {slots : List (LiveHost × Nat)}
    (h : slots.Pairwise fun s s' => s.2 ≠ s'.2) :
    (occupy host i slots).Pairwise fun s s' => s.2 ≠ s'.2 := by
  induction slots with
  | nil => exact List.pairwise_singleton _ _
  | cons s slots ih =>
    obtain ⟨hs, hslots⟩ := List.pairwise_cons.mp h
    rw [occupy]
    split
    · rename_i heq
      refine List.pairwise_cons.mpr ⟨fun s' hs' => ?_, hslots⟩
      rw [← LawfulBEq.eq_of_beq heq]
      exact hs s' hs'
    · rename_i hne
      refine List.pairwise_cons.mpr ⟨fun s' hs' => ?_, ih hslots⟩
      rcases mem_occupy hs' with rfl | hs'
      · intro heq
        exact hne (by rw [heq, beq_self_eq_true])
      · exact hs s' hs'

/-- The host that was seen last takes the slot of its compiler. -/
theorem Ordered.occupy (x : Ordered held t) {host : LiveHost}
    (hheld : (HostArgument.live host).IsHeld held) (hi : i < t.compilers.length)
    (hh : t.textOf i = host.config.canonical) :
    Ordered held { t with live := Transformer.occupy host i t.live } where
  texts := x.texts
  own := x.own
  slots s hs := by
    rcases mem_occupy hs with rfl | hs
    · exact ⟨hheld, hi, hh.symm⟩
    · exact x.slots s hs
  apart := occupy_apart x.apart
  reached := x.reached

/-- A compiler is put back after work with the configuration that it had. -/
theorem Ordered.setCompiler (x : Ordered held t) {c : Compiler}
    (hc : c.Satisfies LanguageCompiler.IsReached) (hconfig : c.config = (t.compiler i).config)
    (w : World) : Ordered held (t.setCompiler i c) ∧ Worked t w (t.setCompiler i c) w := by
  have hworked : Worked t w (t.setCompiler i c) w := setCompiler_worked hconfig rfl
  have hlength := hworked.length
  have htext : ∀ j, (t.setCompiler i c).textOf j = t.textOf j := by
    intro j
    rw [textOf, hworked.configs, textOf]
  refine ⟨⟨?_, ?_, ?_, x.apart, ?_⟩, hworked⟩
  · intro text j hj
    obtain ⟨hlt, h, hread, hcanonical⟩ := x.texts text j hj
    exact ⟨by rw [hlength]; exact hlt, h, hread, by rw [hcanonical, htext]⟩
  · intro j hj
    rw [hlength] at hj
    rw [htext]
    exact x.own j hj
  · intro s hs
    rw [hlength, htext]
    exact x.slots s hs
  · intro d hd
    rcases List.mem_or_eq_of_mem_set hd with hd | rfl
    · exact x.reached d hd
    · exact hc

end Changes

/-! ## Finding -/

theorem compilerOf_finds (x : Ordered held t) {h : HostConfig}
    (hread : HostConfig.ofText h.canonical = .ok h) (hfound : t.compilerOf w h = .ok (i, t')) :
    Finds held t t' i h := by
  rw [compilerOf] at hfound
  split at hfound
  · rename_i k hk
    cases hfound
    obtain ⟨hlt, h', hread', hcanonical⟩ := x.texts _ _ hk
    rw [hread] at hread'
    cases hread'
    exact ⟨x, .refl t, hlt, hcanonical.symm⟩
  · rename_i hnone
    cases hc : t.createCompiler w h with
    | error e =>
      rw [hc] at hfound
      cases hfound
    | ok c =>
      rw [hc] at hfound
      cases hfound
      obtain ⟨codes, config, -, hbuild, hcreate⟩ := createCompiler_eq_ok hc
      have hhost : c.config.host = h := by
        rw [hcreate, config_create, ConfigSet.host_of_build hbuild]
      refine x.made hnone hread hhost ?_
      cases c with
      | language c => exact created_isReached h c hc
      | isolated config' =>
        rw [Compiler.create] at hcreate
        split at hcreate
        · cases hcreate
          assumption
        · cases hcreate

theorem compilerFor_finds (x : Ordered held t) {host : LiveHost}
    (hheld : (HostArgument.live host).IsHeld held)
    (hread : HostConfig.ofText host.config.canonical = .ok host.config)
    (hfound : t.compilerFor w host = .ok (i, t')) : Finds held t t' i host.config := by
  rw [compilerFor] at hfound
  split at hfound
  · rename_i slot hslot
    cases hfound
    obtain ⟨hslotHeld, hlt, hcanonical⟩ := x.slots slot (List.mem_of_find?_eq_some hslot)
    have hsame := List.find?_some hslot
    have hconfig : slot.1.config = host.config :=
      HostArgument.IsHeld.config_eq hslotHeld hheld hsame
    exact ⟨x, .refl t, hlt, by rw [← hconfig, hcanonical]⟩
  · cases hc : t.compilerOf w host.config with
    | error e =>
      rw [hc] at hfound
      cases hfound
    | ok found =>
      obtain ⟨k, t₁⟩ := found
      rw [hc] at hfound
      cases hfound
      have f := compilerOf_finds x hread hc
      exact ⟨f.ordered.occupy hheld f.index f.text, ⟨f.more.length, f.more.configs⟩, f.index,
        f.text⟩

theorem compilerForText_finds (x : Ordered held t) {text : Text}
    (hread : ∀ h, HostConfig.ofText text = .ok h → HostConfig.ofText h.canonical = .ok h)
    (hfound : t.compilerForText w text = .ok (i, t')) :
    ∃ h, HostConfig.ofText text = .ok h ∧ Finds held t t' i h := by
  rw [compilerForText] at hfound
  split at hfound
  · rename_i k hk
    cases hfound
    obtain ⟨hlt, h, htext, hcanonical⟩ := x.texts _ _ hk
    exact ⟨h, htext, x, .refl t, hlt, hcanonical.symm⟩
  · cases htext : HostConfig.ofText text with
    | error e =>
      rw [htext] at hfound
      cases hfound
    | ok h =>
      rw [htext] at hfound
      cases hc : t.compilerFor w { config := h } with
      | error e =>
        simp only [bind, Except.bind, hc] at hfound
        cases hfound
      | ok found =>
        obtain ⟨k, t₁⟩ := found
        simp only [bind, Except.bind, hc] at hfound
        cases hfound
        have hheld : (HostArgument.live { config := h }).IsHeld held := by
          intro n hn
          cases hn
        have f := compilerFor_finds x hheld (hread h htext) hc
        exact ⟨h, rfl, f.ordered.rememberText htext f.index f.text,
          ⟨f.more.length, f.more.configs⟩, f.index, f.text⟩

theorem find_finds (x : Ordered held t) {a : HostArgument} (hheld : a.IsHeld held)
    (hread : a.IsReadable) (hfound : t.find w a = .ok (i, t')) :
    ∃ h, a.config = .ok h ∧ Finds held t t' i h := by
  cases a with
  | live host =>
    exact ⟨host.config, rfl, compilerFor_finds x hheld (hread.ofText_canonical rfl) hfound⟩
  | text text =>
    exact compilerForText_finds x (fun h hh => hread.ofText_canonical hh) hfound

/-! ## Histories -/

theorem config_compileIn_of_reached {c : Compiler} (hc : c.Satisfies LanguageCompiler.IsReached)
    (w : World) (content : Text) (file : Path) (options : TransformOptions) :
    (c.compileIn w content file options).2.1.config = c.config := by
  cases c with
  | isolated config => rfl
  | language c =>
    exact ((hc (w.surroundings c.config.compiler.id)).compile content file options).settled.config

theorem config_resolvedModulesIn_of_reached {c : Compiler}
    (hc : c.Satisfies LanguageCompiler.IsReached) (w : World) (content : Text) (file : Path) :
    (c.resolvedModulesIn w content file).2.1.config = c.config := by
  cases c with
  | isolated config => rfl
  | language c =>
    exact ((hc (w.surroundings c.config.compiler.id)).resolvedModules content file).settled.config

/-- What a call does once it has a compiler leaves the catalogue in order. -/
theorem after_ordered {c : Call} (hfound : t.find w c.argument = .ok (i, t'))
    (x : Ordered held t') (hi : i < t'.compilers.length) :
    Ordered held (c.after t w).1 ∧ Worked t' w (c.after t w).1 w := by
  have hreached := x.reached _ (compiler_mem hi)
  cases c with
  | configSet host =>
    have hfind : t.compilerFor w host = .ok (i, t') := hfound
    rw [Call.after, configSet, hfind]
    exact ⟨x, .refl t' rfl⟩
  | process r host =>
    have hfind : t.find w (.live host) = .ok (i, t') := hfound
    rw [Call.after, process_eq, hfind]
    dsimp only
    rcases transform_cases t' w i r.source ((t'.compiler i).config.rootDir.resolve r.path)
      r.options with heq | heq
    · rw [heq]
      exact ⟨x, .refl t' rfl⟩
    · rw [heq]
      exact x.setCompiler (compileIn_satisfies x.reached _ _ _ hi)
        (config_compileIn_of_reached hreached ..) w
  | key r a =>
    have hfind : t.find w a = .ok (i, t') := hfound
    rw [Call.after, key_eq_of_ok r hfind]
    exact x.setCompiler (resolvedModulesIn_satisfies x.reached _ _ hi)
      (config_resolvedModulesIn_of_reached hreached ..) w

/-- Whether a request that was served got the compiler of its configuration. -/
structure Served.Fits (s : Served) (t : Transformer) : Prop where
  index : s.index < t.compilers.length
  config : s.config = (t.compiler s.index).config
  text : ∃ h, s.argument.config = .ok h ∧ h.canonical = t.textOf s.index

theorem Served.Fits.extends {s : Served} (h : s.Fits t) (more : Extends t t') : s.Fits t' where
  index := h.index.trans_le more.length
  config := by rw [h.config, more.configs _ h.index]
  text := by
    obtain ⟨k, hk, hcanonical⟩ := h.text
    exact ⟨k, hk, by rw [hcanonical, more.textOf h.index]⟩

theorem History.ordered {log : List Served} (h : History held t w log) :
    Ordered held t ∧ ∀ s ∈ log, s.Fits t := by
  induction h with
  | start registry fallback w => exact ⟨ordered_new registry fallback, fun s hs => by cases hs⟩
  | change w' _ ih => exact ih
  | @call t w log c _ hheld hread ih =>
    obtain ⟨x, hlog⟩ := ih
    cases hfind : t.find w c.argument with
    | error e =>
      rw [after_of_find_error hfind, served?, hfind, Option.toList, List.append_nil]
      exact ⟨x, hlog⟩
    | ok found =>
      obtain ⟨i, t'⟩ := found
      obtain ⟨h, hh, f⟩ := find_finds x hheld hread hfind
      obtain ⟨hordered, hworked⟩ := after_ordered hfind f.ordered f.index
      refine ⟨hordered, fun s hs => ?_⟩
      rw [served?, hfind] at hs
      rcases List.mem_append.mp hs with hs | hs
      · exact (hlog s hs).extends (f.more.trans hworked.extends)
      · rw [List.mem_singleton.mp hs]
        have hfits : Served.Fits ⟨c.argument, i, (t'.compiler i).config⟩ t' :=
          ⟨f.index, rfl, h, hh, f.text.symm⟩
        exact hfits.extends hworked.extends

/-- What holds of the catalogue after every history. -/
structure OnePerConfiguration (t : Transformer) (log : List Served) : Prop where
  /-- Requests share a compiler and its configuration set exactly if the same text stands for
  their configurations. -/
  shared : ∀ a ∈ log, ∀ b ∈ log, ∃ h k, a.argument.config = .ok h ∧ b.argument.config = .ok k ∧
    (a.index = b.index ↔ h.canonical = k.canonical) ∧ (a.index = b.index → a.config = b.config)
  /-- No two slots are for one compiler or for one host. -/
  slots : t.live.Pairwise fun s s' => s.2 ≠ s'.2 ∧ s.1.isSame s'.1 = false
  /-- What a slot holds has the text of the configuration of its compiler. -/
  slotTexts : ∀ s ∈ t.live, s.1.config.canonical = (t.compiler s.2).config.host.canonical
  /-- A text that is remembered is read as a configuration of its compiler. -/
  texts : ∀ text i, t.indexOf? text = some i → ∃ h, HostConfig.ofText text = .ok h ∧
    h.canonical = (t.compiler i).config.host.canonical
  /-- A request for which no compiler is found changes nothing. -/
  refused : ∀ (w : World) (c : Call) (e : ConfigError), t.find w c.argument = .error e →
    c.after t w = (t, w)

/-- There is one compiler for each configuration, whichever requests there were. -/
theorem History.onePerConfiguration {log : List Served} (h : History held t w log) :
    OnePerConfiguration t log := by
  obtain ⟨x, hlog⟩ := h.ordered
  constructor
  · intro a ha b hb
    have hfa := hlog a ha
    have hfb := hlog b hb
    obtain ⟨h, hh, hcanonical⟩ := hfa.text
    obtain ⟨k, hk, hcanonical'⟩ := hfb.text
    refine ⟨h, k, hh, hk, ⟨fun heq => ?_, fun heq => ?_⟩, fun heq => ?_⟩
    · rw [hcanonical, hcanonical', heq]
    · rw [hcanonical, hcanonical'] at heq
      exact x.eq_of_textOf hfa.index hfb.index heq
    · rw [hfa.config, hfb.config, heq]
  · refine x.apart.imp_of_mem fun {s s'} hs hs' hne => ⟨hne, ?_⟩
    obtain ⟨hheld, hlt, htext⟩ := x.slots s hs
    obtain ⟨hheld', hlt', htext'⟩ := x.slots s' hs'
    rw [Bool.eq_false_iff]
    intro hsame
    -- One host would have one configuration, and so one compiler.
    rw [HostArgument.IsHeld.config_eq hheld hheld' hsame, htext'] at htext
    exact hne (x.eq_of_textOf hlt hlt' htext.symm)
  · exact fun s hs => (x.slots s hs).2.2
  · exact fun text i hi => (x.texts text i hi).2
  · exact fun w c e hfind => after_of_find_error hfind

namespace Catalogue

def registry : CompilerRegistry :=
  ({} : CompilerRegistry).register CompilerRegistry.defaultName ⟨0, Miniature.Engine.defaultVersion⟩

/-- A host that asks for modules compiled on their own. -/
def host : HostConfig where
  rootDir := Path.ofString "/project"
  globals := [(HostConfig.optionsKey, .obj [("isolatedModules", .bool true)])]

/-- Another text for the host than the one that stands for it. -/
def spelled : Text :=
  "\x7b \"globals\": \x7b\"ts-jest\": \x7b\"isolatedModules\": true\x7d\x7d, \"rootDir\": \"/project\"\x7d"

def module : Request where
  source := "let x = 1;"
  path := Path.ofString "a.ts"

theorem ofText_spelled : HostConfig.ofText spelled = .ok host := by decide +kernel

theorem floatsReread_host : host.FloatsReread := by
  intro n hn
  cases hn

theorem isReadable_host : (HostArgument.live ⟨some 0, host⟩).IsReadable :=
  HostArgument.isReadable_of_ofText ofText_spelled floatsReread_host _

theorem isReadable_spelled : (HostArgument.text spelled).IsReadable := by
  intro h hh
  rw [ofText_spelled] at hh
  cases hh
  exact floatsReread_host

theorem isReadable_nil : (HostArgument.text []).IsReadable := by
  have hread : HostConfig.ofText [] = .error .invalidHostConfig := by decide +kernel
  intro h hh
  rw [hread] at hh
  cases hh

end Catalogue

/-- A host is passed itself, then a text that is no configuration, then another text for the
host.  Two of the requests are served, both by one compiler. -/
theorem onePerConfiguration_spelled :
    let first : Call := .configSet ⟨some 0, Catalogue.host⟩
    let second : Call := .key Catalogue.module (.text [])
    let third : Call := .key Catalogue.module (.text Catalogue.spelled)
    let start : Transformer := { registry := Catalogue.registry }
    let s₁ := first.after start {}
    let s₂ := second.after s₁.1 s₁.2
    let s₃ := third.after s₂.1 s₂.2
    let log := (start.served? {} first).toList ++ (s₁.1.served? s₁.2 second).toList ++
      (s₂.1.served? s₂.2 third).toList
    log.map (·.index) = [0, 0] ∧ OnePerConfiguration s₃.1 log := by
  intro first second third start s₁ s₂ s₃ log
  have hfirst : History (fun _ => Catalogue.host) s₁.1 s₁.2
      ([] ++ (start.served? {} first).toList) :=
    .call first (.start Catalogue.registry none {}) (fun n _ => rfl) Catalogue.isReadable_host
  rw [List.nil_append] at hfirst
  have hhistory : History (fun _ => Catalogue.host) s₃.1 s₃.2 log :=
    .call third (.call second hfirst trivial Catalogue.isReadable_nil) trivial
      Catalogue.isReadable_spelled
  exact ⟨by decide +kernel, hhistory.onePerConfiguration⟩

end Transformer
end TestTransform

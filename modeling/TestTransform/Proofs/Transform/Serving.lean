/-
Which compiler serves which configuration.

A transformer finds a compiler by the number of a host or by a text, and has made it when
the configuration came up first.  `R` says of a host's configuration which configuration
sets are right for it.  If what is made is right, and a configuration is all that its text
stands for, then what is found is right.
-/
import TestTransform.Proofs.Transform.Calls

namespace TestTransform

/-! ## What work leaves alone -/

namespace LanguageCompiler

/-- Nothing is asked of texts and entries, so every call keeps it. -/
theorem kept_trivial (s : Session) (file : Path) (content : Text) :
    Session.Kept (fun _ _ => True) (fun _ _ => True) s file content :=
  ⟨fun _ _ _ _ => trivial, fun _ _ _ _ => trivial, trivial, fun _ _ => trivial⟩

variable {s : Session} (hm : s.world.engine.IsMiniature)
include hm

theorem config_compile (content : Text) (file : Path) (options : TransformOptions) :
    (s.compile content file options).2.config = s.config :=
  (Session.compile_after (kept_trivial s _ content) hm (fun _ _ _ _ => trivial)
    (fun _ _ _ _ => trivial) options).config

theorem config_resolvedModules (content : Text) (file : Path) :
    (s.resolvedModules content file).2.config = s.config :=
  (Session.resolvedModules_after (kept_trivial s _ content) hm (fun _ _ _ _ => trivial)
    (fun _ _ _ _ => trivial)).config

end LanguageCompiler

namespace Compiler

variable {w : World} (hm : w.IsMiniature)
include hm

theorem config_compileIn (c : Compiler) (content : Text) (file : Path)
    (options : TransformOptions) : (c.compileIn w content file options).2.1.config = c.config := by
  cases c with
  | isolated config => rfl
  | language c => exact LanguageCompiler.config_compile (s := c.sessionIn w) (hm _) _ _ _

theorem config_resolvedModulesIn (c : Compiler) (content : Text) (file : Path) :
    (c.resolvedModulesIn w content file).2.1.config = c.config := by
  cases c with
  | isolated config => rfl
  | language c => exact LanguageCompiler.config_resolvedModules (s := c.sessionIn w) (hm _) _ _

end Compiler

namespace Transformer

/-- What a compiler at work leaves as it is: which configurations the compilers have, how
they are found, and the environment. -/
structure Worked (t : Transformer) (w : World) (t' : Transformer) (w' : World) : Prop where
  registry : t'.registry = t.registry
  fallback : t'.fallback = t.fallback
  live : t'.live = t.live
  texts : t'.texts = t.texts
  length : t'.compilers.length = t.compilers.length
  configs : ∀ i, (t'.compiler i).config = (t.compiler i).config
  ignoreCodes : w'.ignoreCodes = w.ignoreCodes

variable {t : Transformer} {w : World} {i : Nat}

theorem Worked.refl (t : Transformer) {w w' : World} (h : w'.ignoreCodes = w.ignoreCodes) :
    Worked t w t w' :=
  ⟨rfl, rfl, rfl, rfl, rfl, fun _ => rfl, h⟩

/-- A compiler is put back with the configuration that it had. -/
theorem setCompiler_worked {c : Compiler} (hc : c.config = (t.compiler i).config) {w' : World}
    (hw : w'.ignoreCodes = w.ignoreCodes) : Worked t w (t.setCompiler i c) w' := by
  refine ⟨rfl, rfl, rfl, rfl, List.length_set, fun j => ?_, hw⟩
  simp only [compiler, setCompiler, List.getD_eq_getElem?_getD, List.getElem?_set] at hc ⊢
  split
  · rename_i hij
    subst hij
    split
    · exact hc
    · rename_i hlong
      rw [List.getElem?_eq_none (Nat.not_lt.mp hlong)]
  · rfl

section Work

variable (hm : w.IsMiniature) {source : Text} {file : Path} (options : TransformOptions)
include hm

theorem keyOf_worked : Worked t w (t.keyOf w i source file options).2.1
    (t.keyOf w i source file options).2.2 :=
  setCompiler_worked (Compiler.config_resolvedModulesIn hm _ _ _) rfl

theorem translate_worked : Worked t w (t.translate w i source file options).2.1
    (t.translate w i source file options).2.2 := by
  have hcompile : Worked t w
      (t.setCompiler i ((t.compiler i).compileIn w source file options).2.1)
      ((t.compiler i).compileIn w source file options).2.2 :=
    setCompiler_worked (Compiler.config_compileIn hm _ _ _ _) rfl
  rw [translate]
  dsimp only
  split
  · exact hcompile
  · split
    · exact hcompile
    · exact Worked.refl t rfl
  · exact Worked.refl t rfl

theorem transform_worked : Worked t w (t.transform w i source file options).2.1
    (t.transform w i source file options).2.2 := by
  have ht : Worked t w (t.translate w i source file options).2.1
      (t.translate w i source file options).2.2 := translate_worked hm options
  rw [transform]
  dsimp only
  split
  · exact Worked.refl t rfl
  · split
    · exact Worked.refl t rfl
    · split <;> rename_i heq <;> rw [heq] at ht
      · exact ht
      · rw [handOn]
        split
        · exact ht
        · exact ⟨ht.registry, ht.fallback, ht.live, ht.texts, ht.length, ht.configs,
            ht.ignoreCodes⟩

end Work

/-! ## Serving -/

variable {hosts : HostConfig → Prop} {held : Nat → HostConfig} {R : HostConfig → ConfigSet → Prop}

/-- Whether a compiler is one of those there are and right for a configuration. -/
def Serves (R : HostConfig → ConfigSet → Prop) (t : Transformer) (i : Nat) (h : HostConfig) : Prop :=
  i < t.compilers.length ∧ R h (t.compiler i).config

/-- Whether what is found by a text is right for the configuration that is read from it,
and what is found by a slot for the one that its host holds. -/
structure Serving (hosts : HostConfig → Prop) (held : Nat → HostConfig)
    (R : HostConfig → ConfigSet → Prop) (t : Transformer) : Prop where
  texts : ∀ text i, Assoc.find? Text.cmp text t.texts = some i →
    ∃ h, HostConfig.ofText text = .ok h ∧ hosts h ∧ Serves R t i h
  live : ∀ slot ∈ t.live, (∀ n, slot.1.id = some n → slot.1.config = held n) ∧
    Serves R t slot.2 slot.1.config

/-- A transformer that has not been used. -/
theorem serving_new (registry : CompilerRegistry) (fallback : Option Fallback) :
    Serving hosts held R { registry, fallback } :=
  ⟨fun text i h => by simp [Assoc.find?] at h, fun slot h => by simp at h⟩

theorem Serves.worked {t' : Transformer} {w' : World} {h : HostConfig}
    (work : Worked t w t' w') (s : Serves R t i h) : Serves R t' i h := by
  rw [Serves, work.length, work.configs]
  exact s

theorem Serving.worked {t' : Transformer} {w' : World} (work : Worked t w t' w')
    (s : Serving hosts held R t) : Serving hosts held R t' := by
  constructor
  · intro text i h
    rw [work.texts] at h
    obtain ⟨h', htext, hhost, hserves⟩ := s.texts text i h
    exact ⟨h', htext, hhost, hserves.worked work⟩
  · intro slot hslot
    rw [work.live] at hslot
    exact ⟨(s.live slot hslot).1, (s.live slot hslot).2.worked work⟩

theorem Serves.append {c : Compiler} {h : HostConfig} (s : Serves R t i h) :
    Serves R { t with compilers := t.compilers ++ [c] } i h := by
  refine ⟨?_, ?_⟩
  · rw [List.length_append]
    exact Nat.lt_add_right _ s.1
  · have hc := s.2
    rw [compiler, List.getD_eq_getElem?_getD] at hc ⊢
    rwa [List.getElem?_append_left s.1]

theorem serves_last {c : Compiler} {h : HostConfig} (hc : R h c.config) :
    Serves R { t with compilers := t.compilers ++ [c] } t.compilers.length h := by
  refine ⟨?_, ?_⟩
  · rw [List.length_append]
    exact Nat.lt_succ_self _
  · rw [compiler, List.getD_eq_getElem?_getD, List.getElem?_concat_length]
    exact hc

theorem Serving.append (s : Serving hosts held R t) (c : Compiler) :
    Serving hosts held R { t with compilers := t.compilers ++ [c] } := by
  constructor
  · intro text i h
    obtain ⟨h', htext, hhost, hserves⟩ := s.texts text i h
    exact ⟨h', htext, hhost, hserves.append⟩
  · intro slot hslot
    exact ⟨(s.live slot hslot).1, (s.live slot hslot).2.append⟩

/-- Remembering the compiler that serves the configuration of a text. -/
theorem Serving.rememberText (s : Serving hosts held R t) {text : Text} {h : HostConfig}
    (htext : HostConfig.ofText text = .ok h) (hh : hosts h) (hi : Serves R t i h) :
    Serving hosts held R (t.rememberText text i) := by
  constructor
  · intro text' i' hfind
    rw [Transformer.rememberText, Assoc.find?_insert] at hfind
    split at hfind
    · rename_i heq
      cases hfind
      rw [Std.LawfulEqCmp.eq_of_compare heq]
      exact ⟨h, htext, hh, hi⟩
    · exact s.texts text' i' hfind
  · exact s.live

theorem mem_occupy {host : LiveHost} {slots : List (LiveHost × Nat)} {slot : LiveHost × Nat}
    (h : slot ∈ occupy host i slots) : slot = (host, i) ∨ slot ∈ slots := by
  induction slots with
  | nil => exact .inl (List.mem_singleton.mp h)
  | cons s slots ih =>
    rw [occupy] at h
    split at h
    · rcases List.mem_cons.mp h with h | h
      · exact .inl h
      · exact .inr (List.mem_cons_of_mem _ h)
    · rcases List.mem_cons.mp h with h | h
      · exact .inr (h ▸ List.mem_cons_self)
      · exact (ih h).imp_right (List.mem_cons_of_mem _)

/-- Giving the slot of a compiler to a host that it serves. -/
theorem Serving.occupy (s : Serving hosts held R t) {host : LiveHost}
    (hid : ∀ n, host.id = some n → host.config = held n) (hi : Serves R t i host.config) :
    Serving hosts held R { t with live := Transformer.occupy host i t.live } := by
  refine ⟨s.texts, fun slot hslot => ?_⟩
  rcases mem_occupy hslot with rfl | hslot
  · exact ⟨hid, hi⟩
  · exact s.live slot hslot

/-! ## Finding -/

section Find

variable (hback : ∀ h, hosts h → HostConfig.ofText h.canonical = .ok h)
  (hnew : ∀ h c, hosts h → t.createCompiler w h = .ok c → R h c.config)
  (s : Serving hosts held R t)
include hback hnew s

theorem compilerOf_serves {h : HostConfig} (hh : hosts h) {t' : Transformer}
    (hfound : t.compilerOf w h = .ok (i, t')) : Serving hosts held R t' ∧ Serves R t' i h := by
  rw [compilerOf] at hfound
  split at hfound
  · rename_i j hfind
    cases hfound
    obtain ⟨h', htext, -, hserves⟩ := s.texts _ _ hfind
    rw [hback h hh] at htext
    cases htext
    exact ⟨s, hserves⟩
  · cases hc : t.createCompiler w h with
    | error e => rw [hc] at hfound; cases hfound
    | ok c =>
      rw [hc] at hfound
      cases hfound
      have hlast := serves_last (t := t) (hnew h c hh hc)
      exact ⟨(s.append c).rememberText (hback h hh) hh hlast, hlast⟩

theorem compilerFor_serves {host : LiveHost} (hh : hosts host.config)
    (hid : ∀ n, host.id = some n → host.config = held n) {t' : Transformer}
    (hfound : t.compilerFor w host = .ok (i, t')) :
    Serving hosts held R t' ∧ Serves R t' i host.config := by
  rw [compilerFor] at hfound
  split at hfound
  · rename_i slot hfind
    cases hfound
    obtain ⟨hslot, hserves⟩ := s.live slot (List.mem_of_find?_eq_some hfind)
    have hsame := List.find?_some hfind
    rw [LiveHost.isSame, Bool.and_eq_true, beq_iff_eq] at hsame
    obtain ⟨n, hn⟩ := Option.isSome_iff_exists.mp hsame.1
    rw [hid n (hsame.2 ▸ hn), ← hslot n hn]
    exact ⟨s, hserves⟩
  · cases hc : t.compilerOf w host.config with
    | error e => rw [hc] at hfound; cases hfound
    | ok found =>
      obtain ⟨j, t₁⟩ := found
      rw [hc] at hfound
      cases hfound
      obtain ⟨hs, hi⟩ := compilerOf_serves hback hnew s hh hc
      exact ⟨hs.occupy hid hi, hi⟩

theorem compilerForText_serves {text : Text} (hh : ∀ h, HostConfig.ofText text = .ok h → hosts h)
    {t' : Transformer} (hfound : t.compilerForText w text = .ok (i, t')) :
    ∃ h, HostConfig.ofText text = .ok h ∧ Serving hosts held R t' ∧ Serves R t' i h := by
  rw [compilerForText] at hfound
  split at hfound
  · rename_i j hfind
    cases hfound
    obtain ⟨h, htext, -, hserves⟩ := s.texts _ _ hfind
    exact ⟨h, htext, s, hserves⟩
  · cases htext : HostConfig.ofText text with
    | error e => rw [htext] at hfound; cases hfound
    | ok h =>
      rw [htext] at hfound
      cases hc : t.compilerFor w { config := h } with
      | error e => simp only [bind, Except.bind, hc] at hfound; cases hfound
      | ok found =>
        obtain ⟨j, t₁⟩ := found
        simp only [bind, Except.bind, hc] at hfound
        cases hfound
        obtain ⟨hs, hi⟩ := compilerFor_serves hback hnew s (hh h htext)
          (fun n hn => by cases hn) hc
        exact ⟨h, rfl, hs.rememberText htext (hh h htext) hi, hi⟩

end Find

/-- No compiler is found only if none can be made. -/
theorem createCompiler_of_compilerOf {h : HostConfig} {e : ConfigError}
    (hfound : t.compilerOf w h = .error e) : t.createCompiler w h = .error e := by
  rw [compilerOf] at hfound
  split at hfound
  · cases hfound
  · cases hc : t.createCompiler w h with
    | error e' => rw [hc] at hfound; cases hfound; rfl
    | ok c => rw [hc] at hfound; cases hfound

theorem createCompiler_of_compilerFor {host : LiveHost} {e : ConfigError}
    (hfound : t.compilerFor w host = .error e) : t.createCompiler w host.config = .error e := by
  rw [compilerFor] at hfound
  split at hfound
  · cases hfound
  · cases hc : t.compilerOf w host.config with
    | error e' =>
      rw [hc] at hfound
      cases hfound
      exact createCompiler_of_compilerOf hc
    | ok found => rw [hc] at hfound; cases hfound

theorem error_of_compilerForText {text : Text} {e : ConfigError}
    (hfound : t.compilerForText w text = .error e) :
    HostConfig.ofText text = .error e ∨
      ∃ h, HostConfig.ofText text = .ok h ∧ t.createCompiler w h = .error e := by
  rw [compilerForText] at hfound
  split at hfound
  · cases hfound
  · cases htext : HostConfig.ofText text with
    | error e' => rw [htext] at hfound; cases hfound; exact .inl rfl
    | ok h =>
      rw [htext] at hfound
      cases hc : t.compilerFor w { config := h } with
      | error e' =>
        simp only [bind, Except.bind, hc] at hfound
        cases hfound
        exact .inr ⟨h, rfl, createCompiler_of_compilerFor hc⟩
      | ok found => simp only [bind, Except.bind, hc] at hfound; cases hfound

end Transformer
end TestTransform

/-
The transformers there are.

A transformer is made and then called again and again, with any sources, while the world may
change in any way between two calls.  Each of its compilers is then one that has been made
and called, the outputs that it remembers are right, and the catalogue by which compilers are
found is in order: every text leads to a compiler, and every slot to the compiler that its
host's own text leads to.
-/
import TestTransform.Proofs.Compiler.Reached
import TestTransform.Proofs.Compiler.Reuse
import TestTransform.Proofs.Transform.Keys

namespace TestTransform

/-- Whether a host that is passed itself is the one held under its number. -/
def HostArgument.IsHeld (held : Nat → HostConfig) : HostArgument → Prop
  | live host => ∀ n, host.id = some n → host.config = held n
  | text _ => True

/-- Hosts under one number hold one configuration. -/
theorem HostArgument.IsHeld.config_eq {held : Nat → HostConfig} {a b : LiveHost}
    (ha : (live a).IsHeld held) (hb : (live b).IsHeld held) (h : a.isSame b = true) :
    a.config = b.config := by
  rw [LiveHost.isSame, Bool.and_eq_true, beq_iff_eq] at h
  obtain ⟨n, hn⟩ := Option.isSome_iff_exists.mp h.1
  rw [ha n hn, hb n (h.2 ▸ hn)]

namespace LanguageCompiler

/-- A compiler that has been made and called, wherever it works. -/
def IsReached (c : LanguageCompiler) : Prop := ∀ world, Session.Reached c.config ⟨c, world⟩

theorem IsReached.compile {c : LanguageCompiler} (h : c.IsReached) (world : Surroundings)
    (content : Text) (file : Path) (options : TransformOptions) :
    (Session.compile ⟨c, world⟩ content file options).2.compiler.IsReached := by
  have hnext := (h world).compile content file options
  have hconfig : (Session.compile ⟨c, world⟩ content file options).2.compiler.config = c.config :=
    hnext.settled.config
  intro world'
  rw [hconfig]
  exact hnext.change world'

theorem IsReached.resolvedModules {c : LanguageCompiler} (h : c.IsReached) (world : Surroundings)
    (content : Text) (file : Path) :
    (Session.resolvedModules ⟨c, world⟩ content file).2.compiler.IsReached := by
  have hnext := (h world).resolvedModules content file
  have hconfig : (Session.resolvedModules ⟨c, world⟩ content file).2.compiler.config = c.config :=
    hnext.settled.config
  intro world'
  rw [hconfig]
  exact hnext.change world'

/-- Whether the outputs that a compiler remembers for the current state are right. -/
def IsSound (c : LanguageCompiler) : Prop := c.host.Sound c.config

theorem isSound_of_valid {config : ConfigSet} {s : Session} (h : Session.Valid config s) :
    s.compiler.IsSound := by
  have hconfig : s.compiler.config = config := h.config
  rw [IsSound, hconfig]
  exact h.sound

/-- Every call keeps that, whichever content is passed. -/
theorem callsKeep_isSound : CallsKeep (fun _ _ _ => True) (fun _ => True) IsSound :=
  { compile := by
      intro s content file options _ hsound hm _ _
      have hv := (Session.compile_spec ⟨rfl, hm, hsound⟩ content file options).1
      exact ⟨isSound_of_valid hv, trivial, hv.miniature⟩
    resolvedModules := by
      intro s content file _ hsound hm _ _
      have hv := Session.resolvedModules_valid ⟨rfl, hm, hsound⟩ content file
      exact ⟨isSound_of_valid hv, trivial, hv.miniature⟩ }

end LanguageCompiler

namespace Transformer

variable {held : Nat → HostConfig} {t t' : Transformer} {w : World} {i : Nat}

/-- The transformers on miniature compilers.  `held` are the configurations that hosts hold. -/
inductive Reached (held : Nat → HostConfig) : Transformer → World → Prop where
  | start (registry : CompilerRegistry) (fallback : Option Fallback) {w : World} :
      w.IsMiniature → Reached held { registry, fallback } w
  | change {t : Transformer} {w w' : World} :
      w'.IsMiniature → Reached held t w → Reached held t w'
  | process {t : Transformer} {w : World} (r : Request) {host : LiveHost} : Reached held t w →
      (HostArgument.live host).IsHeld held →
      Reached held (t.process w r.source r.path host r.options).2.1
        (t.process w r.source r.path host r.options).2.2
  | key {t : Transformer} {w : World} (r : Request) {a : HostArgument} : Reached held t w →
      a.IsHeld held → Reached held (t.key w r a).2.1 (t.key w r a).2.2

/-! ## Compilers -/

/-- At most the compiler that was found has worked. -/
theorem transform_cases (t : Transformer) (w : World) (i : Nat) (source : Text) (file : Path)
    (options : TransformOptions) : (t.transform w i source file options).2.1 = t ∨
      (t.transform w i source file options).2.1 =
        t.setCompiler i ((t.compiler i).compileIn w source file options).2.1 := by
  have htranslate : (t.translate w i source file options).2.1 = t ∨
      (t.translate w i source file options).2.1 =
        t.setCompiler i ((t.compiler i).compileIn w source file options).2.1 := by
    rw [translate]
    dsimp only
    split
    · exact .inr rfl
    · split
      · exact .inr rfl
      · exact .inl rfl
    · exact .inl rfl
  rw [transform]
  dsimp only
  split
  · exact .inl rfl
  · split
    · exact .inl rfl
    · split <;> rename_i heq <;> rw [heq] at htranslate <;> exact htranslate

theorem created_isReached (host : HostConfig) (c : LanguageCompiler)
    (h : t.createCompiler w host = .ok (.language c)) : c.IsReached := by
  obtain ⟨codes, config, -, -, hcreate⟩ := createCompiler_eq_ok h
  rw [Compiler.create] at hcreate
  split at hcreate
  · cases hcreate
  · cases hcreate
    exact fun world => .create w.view world

theorem compileIn_satisfies (ha : All LanguageCompiler.IsReached t) (source : Text) (file : Path)
    (options : TransformOptions) (hi : i < t.compilers.length) :
    ((t.compiler i).compileIn w source file options).2.1.Satisfies
      LanguageCompiler.IsReached := by
  have hc := ha _ (compiler_mem hi)
  generalize t.compiler i = c at hc
  cases c with
  | isolated config => exact hc
  | language c => exact LanguageCompiler.IsReached.compile hc _ source file options

theorem resolvedModulesIn_satisfies (ha : All LanguageCompiler.IsReached t) (source : Text)
    (file : Path) (hi : i < t.compilers.length) :
    ((t.compiler i).resolvedModulesIn w source file).2.1.Satisfies
      LanguageCompiler.IsReached := by
  have hc := ha _ (compiler_mem hi)
  generalize t.compiler i = c at hc
  cases c with
  | isolated config => exact hc
  | language c => exact LanguageCompiler.IsReached.resolvedModules hc _ source file

/-! ## The catalogue -/

/-- The compiler that a text leads to. -/
def indexOf? (t : Transformer) (text : Text) : Option Nat := Assoc.find? Text.cmp text t.texts

structure Catalogued (held : Nat → HostConfig) (t : Transformer) : Prop where
  texts : ∀ text i, t.indexOf? text = some i → i < t.compilers.length
  live : ∀ slot ∈ t.live, (∀ n, slot.1.id = some n → slot.1.config = held n) ∧
    t.indexOf? slot.1.config.canonical = some slot.2

/-- What finding the compiler `i` adds to a catalogue. -/
structure Leads (t t' : Transformer) (i : Nat) : Prop where
  known : ∀ text j, t.indexOf? text = some j → t'.indexOf? text = some j
  new : ∀ text j, t'.indexOf? text = some j → t.indexOf? text = some j ∨ j = i
  index : i < t'.compilers.length

theorem catalogued_new (registry : CompilerRegistry) (fallback : Option Fallback) :
    Catalogued held { registry, fallback } := by
  constructor
  · intro text i hi
    cases hi
  · intro slot hslot
    cases hslot

theorem indexOf?_rememberText (t : Transformer) (text : Text) (i : Nat) (text' : Text) :
    (t.rememberText text i).indexOf? text' = if text' = text then some i else t.indexOf? text' := by
  rw [indexOf?, rememberText, Assoc.find?_insert, indexOf?]
  by_cases h : text' = text
  · rw [if_pos h, if_pos (by rw [h]; exact Std.ReflCmp.compare_self)]
  · rw [if_neg h, if_neg fun heq => h (Std.LawfulEqCmp.eq_of_compare heq)]

theorem Catalogued.setCompiler (x : Catalogued held t) (c : Compiler) :
    Catalogued held (t.setCompiler i c) := by
  constructor
  · intro text j h
    rw [Transformer.setCompiler, List.length_set]
    exact x.texts text j h
  · exact x.live

/-- Another text for a compiler that is there. -/
theorem Catalogued.rememberText (x : Catalogued held t) {text : Text}
    (hi : i < t.compilers.length) (hnew : ∀ j, t.indexOf? text = some j → j = i) :
    Catalogued held (t.rememberText text i) := by
  constructor
  · intro text' j h
    rw [indexOf?_rememberText] at h
    split at h
    · cases h
      exact hi
    · exact x.texts text' j h
  · intro slot hslot
    obtain ⟨hheld, hindex⟩ := x.live slot hslot
    refine ⟨hheld, ?_⟩
    rw [indexOf?_rememberText]
    split
    · rename_i heq
      rw [heq] at hindex
      rw [hnew _ hindex]
    · exact hindex

theorem Leads.rememberText (l : Leads t t' i) {text : Text} (hnone : t.indexOf? text = none) :
    Leads t (t'.rememberText text i) i := by
  refine ⟨fun text' j h => ?_, fun text' j h => ?_, l.index⟩
  · rw [indexOf?_rememberText, if_neg, l.known text' j h]
    rintro rfl
    rw [hnone] at h
    cases h
  · rw [indexOf?_rememberText] at h
    split at h
    · cases h
      exact .inr rfl
    · exact l.new text' j h

theorem Leads.refl (hi : i < t.compilers.length) : Leads t t i :=
  ⟨fun _ _ h => h, fun _ _ h => .inl h, hi⟩

/-- A compiler is found by the text of its configuration, or made. -/
theorem compilerOf_leads (x : Catalogued held t) {host : HostConfig}
    (h : t.compilerOf w host = .ok (i, t')) :
    Catalogued held t' ∧ Leads t t' i ∧ t'.indexOf? host.canonical = some i := by
  rw [compilerOf] at h
  split at h
  · rename_i j hj
    cases h
    exact ⟨x, .refl (x.texts _ _ hj), hj⟩
  · rename_i hnone
    cases hc : t.createCompiler w host with
    | error e => rw [hc] at h; cases h
    | ok c =>
      rw [hc] at h
      cases h
      have hnone' : t.indexOf? host.canonical = none := hnone
      have hlength : t.compilers.length <
          ({ t with compilers := t.compilers ++ [c] } : Transformer).compilers.length := by
        rw [List.length_append]
        exact Nat.lt_succ_self _
      have happend : Catalogued held { t with compilers := t.compilers ++ [c] } :=
        ⟨fun text j hj => Nat.lt_trans (x.texts text j hj) hlength, x.live⟩
      have hleads : Leads t { t with compilers := t.compilers ++ [c] } t.compilers.length :=
        ⟨fun _ _ h => h, fun _ _ h => .inl h, hlength⟩
      refine ⟨happend.rememberText hlength fun j hj => ?_, hleads.rememberText hnone', ?_⟩
      · have hj' : t.indexOf? host.canonical = some j := hj
        rw [hnone'] at hj'
        cases hj'
      · rw [indexOf?_rememberText, if_pos rfl]

/-- The slot of a held host leads where its text leads. -/
theorem Catalogued.slot (x : Catalogued held t) {host : LiveHost}
    (hheld : (HostArgument.live host).IsHeld held) {slot : LiveHost × Nat}
    (h : t.live.find? (fun slot => slot.1.isSame host) = some slot) :
    t.indexOf? host.config.canonical = some slot.2 := by
  obtain ⟨hslot, hindex⟩ := x.live slot (List.mem_of_find?_eq_some h)
  have hsame := List.find?_some h
  rw [← HostArgument.IsHeld.config_eq hslot hheld hsame]
  exact hindex

theorem compilerFor_leads (x : Catalogued held t) {host : LiveHost}
    (hheld : (HostArgument.live host).IsHeld held) (h : t.compilerFor w host = .ok (i, t')) :
    Catalogued held t' ∧ Leads t t' i ∧ t'.indexOf? host.config.canonical = some i := by
  rw [compilerFor] at h
  split at h
  · rename_i slot hslot
    cases h
    have hindex := x.slot hheld hslot
    exact ⟨x, .refl (x.texts _ _ hindex), hindex⟩
  · cases hc : t.compilerOf w host.config with
    | error e => rw [hc] at h; cases h
    | ok found =>
      obtain ⟨j, t₁⟩ := found
      rw [hc] at h
      cases h
      obtain ⟨hx, hl, hindex⟩ := compilerOf_leads x hc
      refine ⟨⟨hx.texts, fun slot hslot => ?_⟩, ⟨hl.known, hl.new, hl.index⟩, hindex⟩
      rcases mem_occupy hslot with rfl | hslot
      · exact ⟨hheld, hindex⟩
      · exact hx.live slot hslot

theorem compilerForText_leads (x : Catalogued held t) {text : Text}
    (h : t.compilerForText w text = .ok (i, t')) :
    Catalogued held t' ∧ Leads t t' i ∧ t'.indexOf? text = some i := by
  rw [compilerForText] at h
  split at h
  · rename_i j hj
    cases h
    exact ⟨x, .refl (x.texts _ _ hj), hj⟩
  · rename_i hnone
    have hnone' : t.indexOf? text = none := hnone
    cases htext : HostConfig.ofText text with
    | error e => rw [htext] at h; cases h
    | ok host =>
      rw [htext] at h
      cases hc : t.compilerFor w { config := host } with
      | error e => simp only [bind, Except.bind, hc] at h; cases h
      | ok found =>
        obtain ⟨j, t₁⟩ := found
        simp only [bind, Except.bind, hc] at h
        cases h
        obtain ⟨hx, hl, -⟩ := compilerFor_leads x (fun n hn => by cases hn) hc
        refine ⟨hx.rememberText hl.index fun j hj => ?_, hl.rememberText hnone', ?_⟩
        · rcases hl.new text j hj with hj | hj
          · rw [hnone'] at hj
            cases hj
          · exact hj
        · rw [indexOf?_rememberText, if_pos rfl]

theorem compilerFor_of_indexOf? (x : Catalogued held t) {host : LiveHost}
    (hheld : (HostArgument.live host).IsHeld held)
    (hj : t.indexOf? host.config.canonical = some i) :
    ∃ t', t.compilerFor w host = .ok (i, t') ∧ t'.compilers = t.compilers ∧
      t'.fallback = t.fallback := by
  rw [compilerFor]
  split
  · rename_i slot hslot
    have hindex := x.slot hheld hslot
    rw [hj] at hindex
    cases hindex
    exact ⟨t, rfl, rfl, rfl⟩
  · have hof : t.compilerOf w host.config = .ok (i, t) := by
      have hj' : Assoc.find? Text.cmp host.config.canonical t.texts = some i := hj
      rw [compilerOf, hj']
    rw [hof]
    exact ⟨_, rfl, rfl, rfl⟩

/-- Without a compiler for its text a held host has no slot either. -/
theorem compilerFor_of_unknown (x : Catalogued held t) {host : LiveHost}
    (hheld : (HostArgument.live host).IsHeld held)
    (hnone : t.indexOf? host.config.canonical = none) :
    t.compilerFor w host = (t.compilerOf w host.config).map fun (i, t) =>
      (i, { t with live := occupy host i t.live }) := by
  rw [compilerFor]
  split
  · rename_i slot hslot
    have hindex := x.slot hheld hslot
    rw [hnone] at hindex
    cases hindex
  · cases t.compilerOf w host.config <;> rfl

theorem find_leads (x : Catalogued held t) {a : HostArgument} (hheld : a.IsHeld held)
    (h : t.find w a = .ok (i, t')) : Catalogued held t' ∧ Leads t t' i := by
  cases a with
  | live host =>
    obtain ⟨hx, hl, -⟩ := compilerFor_leads x hheld h
    exact ⟨hx, hl⟩
  | text text =>
    obtain ⟨hx, hl, -⟩ := compilerForText_leads x h
    exact ⟨hx, hl⟩

/-! ## Calls -/

theorem process_eq (t : Transformer) (w : World) (source : Text) (path : Path) (host : LiveHost)
    (options : TransformOptions) : t.process w source path host options =
      match t.find w (.live host) with
      | .error e => (.error (.config e), t, w)
      | .ok (i, t) =>
        t.transform w i source ((t.compiler i).config.rootDir.resolve path) options := rfl

/-- A transformer on miniature compilers whose outputs are right. -/
abbrev IsSound (t : Transformer) (w : World) : Prop :=
  Fine (fun _ => True) LanguageCompiler.IsSound t w

theorem isSound_new (registry : CompilerRegistry) (fallback : Option Fallback)
    (hm : w.IsMiniature) : IsSound { registry, fallback } w :=
  ⟨fun c hc => by simp at hc, hm, trivial⟩

theorem IsSound.find (f : IsSound t w) {a : HostArgument} (h : t.find w a = .ok (i, t')) :
    IsSound t' w := by
  refine ⟨(found_of_find h).all f.all fun host c _ hc => ?_, f.miniature, trivial⟩
  obtain ⟨codes, config, -, -, hcreate⟩ := createCompiler_eq_ok hc
  rw [Compiler.create] at hcreate
  split at hcreate
  · cases hcreate
  · cases hcreate
    exact ServiceHost.Sound.of_empty rfl

theorem IsSound.process (f : IsSound t w) (r : Request) (host : LiveHost) :
    IsSound (t.process w r.source r.path host r.options).2.1
      (t.process w r.source r.path host r.options).2.2 := by
  rw [process_eq]
  cases hfind : t.find w (.live host) with
  | error e => exact f
  | ok found =>
    exact transform_fine LanguageCompiler.callsKeep_isSound (f.find hfind) r.options
      (resolve_normal _ _) trivial

theorem IsSound.key (f : IsSound t w) (r : Request) (a : HostArgument) :
    IsSound (t.key w r a).2.1 (t.key w r a).2.2 := by
  cases hfind : t.find w a with
  | error e =>
    rw [key_eq_of_error r hfind]
    exact f
  | ok found =>
    obtain ⟨i, t'⟩ := found
    have hkey : ∀ file : Path, file.normalize = file →
        IsSound (t'.keyOf w i r.source file r.options).2.1
          (t'.keyOf w i r.source file r.options).2.2 :=
      fun file hf => keyOf_fine LanguageCompiler.callsKeep_isSound (f.find hfind) r.options hf trivial
    have hkey := hkey _ (resolve_normal (t'.compiler i).config.rootDir r.path)
    rw [key_eq_of_ok r hfind]
    generalize t'.keyOf w i r.source _ r.options = out at hkey ⊢
    exact hkey

/-- What holds of a transformer between calls. -/
structure Settled (held : Nat → HostConfig) (t : Transformer) : Prop where
  catalogued : Catalogued held t
  all : All LanguageCompiler.IsReached t

theorem Settled.find (x : Settled held t) {a : HostArgument} (hheld : a.IsHeld held)
    (h : t.find w a = .ok (i, t')) : Settled held t' :=
  ⟨(find_leads x.catalogued hheld h).1,
    (found_of_find h).all x.all fun host c _ => created_isReached host c⟩

theorem Reached.settled (h : Reached held t w) : Settled held t := by
  induction h with
  | start registry fallback _ =>
    refine ⟨catalogued_new registry fallback, fun c hc => ?_⟩
    cases hc
  | change _ _ ih => exact ih
  | @process t w r host _ hheld ih =>
    rw [process_eq]
    cases hfind : t.find w (.live host) with
    | error e => exact ih
    | ok found =>
      obtain ⟨i, t'⟩ := found
      have hfound := ih.find hheld hfind
      dsimp only
      rcases transform_cases t' w i r.source ((t'.compiler i).config.rootDir.resolve r.path)
        r.options with heq | heq
      · rw [heq]
        exact hfound
      · rw [heq]
        exact ⟨hfound.catalogued.setCompiler _,
          hfound.all.setCompiler fun hi => compileIn_satisfies hfound.all _ _ _ hi⟩
  | @key t w r a _ hheld ih =>
    rw [key_eq]
    cases hfind : t.find w a with
    | error e => exact ih
    | ok found =>
      obtain ⟨i, t'⟩ := found
      have hfound := ih.find hheld hfind
      exact ⟨hfound.catalogued.setCompiler _,
        hfound.all.setCompiler fun hi => resolvedModulesIn_satisfies hfound.all _ _ hi⟩

theorem Reached.isSound (h : Reached held t w) : IsSound t w := by
  induction h with
  | start registry fallback hm => exact isSound_new registry fallback hm
  | change hm _ ih => exact ⟨ih.all, hm, trivial⟩
  | process r _ _ ih => exact ih.process r _
  | key r _ _ ih => exact ih.key r _

end Transformer
end TestTransform

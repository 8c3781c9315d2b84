/-
A request for a key on the side.

Whether a key is asked for first makes no difference to the verdict on another file, as long
as what the request leaves does not matter for that file.  It takes files into its compiler,
and if it goes to another compiler the disk can still be different, in the file of a graph.
There are five matters in which that can make a difference, and for each of them there is a
project in which it does although the other four do not.
-/
import TestTransform.Proofs.Compiler.Aside
import TestTransform.Proofs.Transform.Reached
import TestTransform.Proofs.Transform.Verdict

namespace TestTransform

theorem World.engine_update_alike {w : World} {id : Nat} {s : Surroundings}
    (h : Engine.Alike (w.engine id) s.engine) (k : Nat) :
    Engine.Alike (w.engine k) ((w.update id s).engine k) := by
  rw [engine, List.getD_eq_getElem?_getD] at h ⊢
  rw [engine, List.getD_eq_getElem?_getD, World.update, List.getElem?_set]
  by_cases hk : id = k
  · subst hk
    rw [if_pos rfl]
    by_cases hlength : id < w.engines.length
    · rw [if_pos hlength]
      exact h
    · rw [if_neg hlength, List.getElem?_eq_none (Nat.not_lt.mp hlength)]
      exact Engine.Alike.refl _
  · rw [if_neg hk]
    exact Engine.Alike.refl _

/-- Whether the host of a call is sure to stand for a configuration: it holds it, or is the
text of it and read back as it. -/
def HostArgument.StandsFor (config : HostConfig) : HostArgument → Prop
  | live host => host.config = config
  | text t => t = config.canonical ∧ HostConfig.ofText t = .ok config

namespace Transformer

open LanguageCompiler (Session)
open LanguageCompiler.Session (ApartFromGraph Beside Spared OutputsServe NamesAgree ValuesAgree
  OthersPass)
open TransformError (verdict)

variable {held : Nat → HostConfig} {t t₁ t₂ : Transformer} {w w' : World} {i j : Nat}
  {r r' : Request} {a : HostArgument} {host : LiveHost}

/-! ## Finding a compiler again -/

theorem Found.compiler_eq {who : HostConfig → Prop} (f : Found t w who t₁)
    (hj : j < t.compilers.length) : t₁.compiler j = t.compiler j := by
  rcases f.compilers with h | ⟨_, c, -, -, h⟩
  · rw [compiler, h, compiler]
  · rw [compiler, h, compiler, List.getD_eq_getElem?_getD, List.getElem?_append_left hj,
      ← List.getD_eq_getElem?_getD]

/-- A request for a configuration that is not known yet makes the compiler for it. -/
theorem compilerOf_of_find {config : HostConfig} (x : Catalogued held t) (ha : a.IsHeld held)
    (hunknown : t.indexOf? config.canonical = none) (hstands : a.StandsFor config)
    (hfind : t.find w a = .ok (i, t₁)) :
    ∃ t₀, t.compilerOf w config = .ok (i, t₀) ∧ t₁.compilers = t₀.compilers ∧
      t₁.indexOf? config.canonical = some i := by
  cases a with
  | live host' =>
    have hconfig : host'.config = config := hstands
    have hfind' : t.compilerFor w host' = .ok (i, t₁) := hfind
    obtain ⟨-, -, hindex⟩ := compilerFor_leads x ha hfind'
    rw [compilerFor_of_unknown x ha (by rw [hconfig, hunknown]), hconfig] at hfind'
    rw [hconfig] at hindex
    cases hof : t.compilerOf w config with
    | error e => rw [hof] at hfind'; cases hfind'
    | ok found =>
      obtain ⟨k, t₀⟩ := found
      rw [hof] at hfind'
      cases hfind'
      exact ⟨t₀, rfl, rfl, hindex⟩
  | text text =>
    obtain ⟨rfl, hread⟩ := hstands
    have hfind' : t.compilerForText w config.canonical = .ok (i, t₁) := hfind
    obtain ⟨-, -, hindex⟩ := compilerForText_leads x hfind'
    have hnone : Assoc.find? Text.cmp config.canonical t.texts = none := hunknown
    rw [compilerForText, hnone, hread] at hfind'
    have hnobody : (HostArgument.live { config }).IsHeld held := fun n hn => by cases hn
    have hnew := compilerFor_of_unknown (w := w) x hnobody hunknown
    cases hof : t.compilerOf w config with
    | error e =>
      rw [hof] at hnew
      simp only [bind, Except.bind, hnew] at hfind'
      cases hfind'
    | ok found =>
      obtain ⟨k, t₀⟩ := found
      rw [hof] at hnew
      simp only [bind, Except.bind, hnew] at hfind'
      cases hfind'
      exact ⟨t₀, rfl, rfl, hindex⟩

/-- After a request a host is led to the compiler that it would have been given before, if
there was one or if the request was for the host's configuration. -/
theorem compilerFor_after_find (x : Catalogued held t) (ha : a.IsHeld held)
    (hheld : (HostArgument.live host).IsHeld held)
    (hfor : t.indexOf? host.config.canonical ≠ none ∨ a.StandsFor host.config)
    (hfind : t.find w a = .ok (i, t₁)) :
    ∃ j t₂, t.compilerFor w host = .ok (j, t₂) ∧ t₁.indexOf? host.config.canonical = some j ∧
      t₂.compiler j = t₁.compiler j := by
  obtain ⟨-, hleads⟩ := find_leads x ha hfind
  cases hj : t.indexOf? host.config.canonical with
  | some j =>
    obtain ⟨t₂, hfor, hcompilers, -⟩ := compilerFor_of_indexOf? (w := w) x hheld hj
    refine ⟨j, t₂, hfor, hleads.known _ j hj, ?_⟩
    rw [(found_of_find hfind).compiler_eq (x.texts _ j hj), compiler, hcompilers, compiler]
  | none =>
    -- The request was for the same configuration, so both calls make the same compiler.
    obtain ⟨t₀, hof, hcompilers, hindex⟩ :=
      compilerOf_of_find x ha hj (hfor.resolve_left fun h => h hj) hfind
    have hhost := compilerFor_of_unknown (w := w) x hheld hj
    rw [hof] at hhost
    refine ⟨i, _, hhost, hindex, ?_⟩
    rw [compiler, compiler, hcompilers]

/-! ## The two requests -/

/-- The session that a request is served in, if its compiler follows imports. -/
def sessionFor? (t : Transformer) (w : World) (a : HostArgument) : Option Session :=
  match t.find w a with
  | .ok (i, t) =>
    match t.compiler i with
    | .language c => some (c.sessionIn w)
    | .isolated _ => none
  | .error _ => none

theorem sessionFor?_of_find {c : LanguageCompiler} (h : t.find w a = .ok (i, t₁))
    (hc : t₁.compiler i = .language c) : t.sessionFor? w a = some (c.sessionIn w) := by
  rw [sessionFor?, h]
  dsimp only
  rw [hc]

/-- A request for a key with the content on disk, and a request to process another file, of
compilers that follow imports. -/
structure FullCalls (t : Transformer) (w : World) (r : Request) (a : HostArgument) (r' : Request)
    (host : LiveHost) : Prop where
  key : ∀ c ∈ t.configFor? w a,
    c.isolated = false ∧ w.disk.read? (c.rootDir.resolve r.path) = some r.source
  process : ∀ c ∈ t.configFor? w (.live host), c.isolated = false
  other : ∀ c ∈ t.configFor? w a, ∀ d ∈ t.configFor? w (.live host),
    (d.rootDir.resolve r'.path).same (c.rootDir.resolve r.path) = false

instance (t : Transformer) (w : World) (r : Request) (a : HostArgument) (r' : Request)
    (host : LiveHost) : Decidable (FullCalls t w r a r' host) :=
  decidable_of_iff
    ((∀ c ∈ t.configFor? w a,
        c.isolated = false ∧ w.disk.read? (c.rootDir.resolve r.path) = some r.source) ∧
      (∀ c ∈ t.configFor? w (.live host), c.isolated = false) ∧
      ∀ c ∈ t.configFor? w a, ∀ d ∈ t.configFor? w (.live host),
        (d.rootDir.resolve r'.path).same (c.rootDir.resolve r.path) = false)
    ⟨fun h => ⟨h.1, h.2.1, h.2.2⟩, fun h => ⟨h.key, h.process, h.other⟩⟩

/-- Whether the request for the key is sure to take in nothing that matters when the other file
is built: the compiler is known or made for the same configuration, the file of the key is not
held with another content, and what is taken in is neither a declaration file nor an importer. -/
structure Spares (t : Transformer) (w : World) (r : Request) (a : HostArgument) (r' : Request)
    (host : LiveHost) : Prop where
  compiler : t.indexOf? host.config.canonical ≠ none ∨ a.StandsFor host.config
  held : ∀ s ∈ t.sessionFor? w a, ∀ text,
    s.held? (s.config.rootDir.resolve r.path) = some text → text = r.source
  spared : ∀ c ∈ t.configFor? w a, ∀ s ∈ t.sessionFor? w (.live host),
    ∀ s' ∈ (t.key w r a).2.1.sessionFor? (t.key w r a).2.2 (.live host),
      Spared (ApartFromGraph c) s s' (s.config.rootDir.resolve r'.path)

/-- The configuration set that a host is given. -/
def configured (t : Transformer) (w : World) (a : HostArgument) : Except ConfigError ConfigSet :=
  (t.find w a).map fun (i, t) => (t.compiler i).config

/-- Whether something holds of the sessions in which the other file is compiled, if it is: the one
without the request for the key and the one after it, both with the file shown. -/
def Between (t : Transformer) (w : World) (r : Request) (a : HostArgument) (r' : Request)
    (host : LiveHost) (P : Path → Session → Session → Prop) : Prop :=
  ∀ s ∈ t.sessionFor? w (.live host),
    ∀ s' ∈ (t.key w r a).2.1.sessionFor? (t.key w r a).2.2 (.live host),
      s.config.compiles (s.config.rootDir.resolve r'.path) = true →
        P (s.config.rootDir.resolve r'.path).normalize
          (s.shown r'.source (s.config.rootDir.resolve r'.path) r'.options)
          (s'.shown r'.source (s.config.rootDir.resolve r'.path) r'.options)

/-- Whether something holds of two sessions if the file is built in both. -/
def IfBuilt (P : Path → Session → Session → Prop) (p : Path) (s s' : Session) : Prop :=
  s.reusable? p = none → s'.reusable? p = none → P p s s'

/-- What a request for a key can make a difference to: what a host's configuration is read from,
an output that is at hand, the names that are declared, the values of files, and the recorded
importers that are still to be checked. -/
inductive Matter where
  | settings
  | output
  | names
  | values
  | importers
  deriving DecidableEq

theorem Matter.forall_iff {P : Matter → Prop} : (∀ m, P m) ↔
    P .settings ∧ P .output ∧ P .names ∧ P .values ∧ P .importers :=
  ⟨fun h => ⟨h _, h _, h _, h _, h _⟩, fun ⟨hs, ho, hn, hv, hi⟩ m => by cases m <;> assumption⟩

/-- Whether it concerns the checks that are made when a file is built. -/
def Matter.OfChecks : Matter → Prop
  | names | values | importers => True
  | settings | output => False

/-- Whether the other file is processed alike in a matter, without the request and after it. -/
def Agrees (t : Transformer) (w : World) (r : Request) (a : HostArgument) (r' : Request)
    (host : LiveHost) : Matter → Prop
  | .settings => (t.key w r a).2.1.configured (t.key w r a).2.2 (.live host) =
      t.configured w (.live host)
  | .output => t.Between w r a r' host fun p => OutputsServe p r'.source
  | .names => t.Between w r a r' host (IfBuilt NamesAgree)
  | .values => t.Between w r a r' host (IfBuilt ValuesAgree)
  | .importers => t.Between w r a r' host (IfBuilt OthersPass)

section Decidable

variable (t : Transformer) (w : World) (r : Request) (a : HostArgument) (r' : Request)
  (host : LiveHost)

instance (P : Path → Session → Session → Prop) [∀ p s s', Decidable (P p s s')] :
    Decidable (t.Between w r a r' host P) :=
  inferInstanceAs (Decidable (∀ s ∈ t.sessionFor? w (.live host),
    ∀ s' ∈ (t.key w r a).2.1.sessionFor? (t.key w r a).2.2 (.live host),
      s.config.compiles (s.config.rootDir.resolve r'.path) = true →
        P (s.config.rootDir.resolve r'.path).normalize
          (s.shown r'.source (s.config.rootDir.resolve r'.path) r'.options)
          (s'.shown r'.source (s.config.rootDir.resolve r'.path) r'.options)))

instance (P : Path → Session → Session → Prop) [∀ p s s', Decidable (P p s s')] (p : Path)
    (s s' : Session) : Decidable (IfBuilt P p s s') :=
  inferInstanceAs (Decidable (s.reusable? p = none → s'.reusable? p = none → P p s s'))

instance : DecidablePred (t.Agrees w r a r' host)
  | .settings => inferInstanceAs (Decidable (_ = _))
  | .output => inferInstanceAs (Decidable (t.Between w r a r' host fun p => OutputsServe p r'.source))
  | .names => inferInstanceAs (Decidable (t.Between w r a r' host (IfBuilt NamesAgree)))
  | .values => inferInstanceAs (Decidable (t.Between w r a r' host (IfBuilt ValuesAgree)))
  | .importers => inferInstanceAs (Decidable (t.Between w r a r' host (IfBuilt OthersPass)))

end Decidable

/-- Whether the request leaves the other file undisturbed in a matter: it is processed alike, or
the matter is one of checks and nothing is taken in that matters for them. -/
def Undisturbed (t : Transformer) (w : World) (r : Request) (a : HostArgument) (r' : Request)
    (host : LiveHost) (m : Matter) : Prop :=
  t.Agrees w r a r' host m ∨ m.OfChecks ∧ t.Spares w r a r' host

theorem All.of_full {P : LanguageCompiler → Prop} (ha : All P t) (hi : i < t.compilers.length)
    (hfull : (t.compiler i).config.isolated = false) : ∃ c, t.compiler i = .language c := by
  have hsat := ha _ (compiler_mem hi)
  cases hc : t.compiler i with
  | language c => exact ⟨c, rfl⟩
  | isolated config =>
    rw [hc] at hsat hfull
    have hisolated : config.isolated = true := hsat
    have hnot : config.isolated = false := hfull
    rw [hisolated] at hnot
    cases hnot

theorem language_of_find (h : Reached held t w) (ha : a.IsHeld held)
    (hfind : t.find w a = .ok (i, t₁)) (hfull : (t₁.compiler i).config.isolated = false) :
    ∃ c, t₁.compiler i = .language c :=
  (h.settled.find ha hfind).all.of_full (find_leads h.settled.catalogued ha hfind).2.index hfull

theorem valid_of_find {c : LanguageCompiler} (h : Reached held t w)
    (hfind : t.find w a = .ok (i, t₁)) (hc : t₁.compiler i = .language c) :
    Session.Valid c.config (c.sessionIn w) :=
  ⟨rfl, h.isSound.miniature _, (h.isSound.find hfind).all.language hc⟩

/-- Whoever serves a request for a key, the engines are set up as before. -/
theorem engine_key_alike (t : Transformer) (w : World) (r : Request) (a : HostArgument) (k : Nat) :
    Engine.Alike (w.engine k) ((t.key w r a).2.2.engine k) := by
  cases hfind : t.find w a with
  | error e =>
    rw [key_eq_of_error r hfind]
    exact Engine.Alike.refl _
  | ok found =>
    obtain ⟨i, t'⟩ := found
    rw [key_eq_of_ok r hfind]
    dsimp only
    rw [keyOf]
    cases hc : t'.compiler i with
    | isolated config =>
      rw [Compiler.resolvedModulesIn_isolated]
      exact World.engine_update_alike (Engine.Alike.refl _) k
    | language c =>
      rw [LanguageCompiler.resolvedModulesIn_language]
      exact World.engine_update_alike (Session.resolvedModules_engine (c.sessionIn w) _ _) k

theorem fallback_key (t : Transformer) (w : World) (r : Request) (a : HostArgument) :
    (t.key w r a).2.1.fallback = t.fallback := by
  cases hfind : t.find w a with
  | error e => rw [key_eq_of_error r hfind]
  | ok found =>
    rw [key_eq_of_ok r hfind]
    exact (found_of_find hfind).fallback

/-- The session that a compiler is in after the request, compared with the one before. -/
theorem beside_of_key {c d : LanguageCompiler} (hall : All LanguageCompiler.IsReached t₁)
    (hfind : t.find w a = .ok (i, t₁)) (hc : t₁.compiler i = .language c)
    (hd : t₁.compiler j = .language d) (hi : i < t₁.compilers.length)
    (hs : w.disk.read? (c.config.rootDir.resolve r.path) = some r.source)
    (hheld : ∀ text, (c.sessionIn w).held? (c.config.rootDir.resolve r.path) = some text →
      text = r.source) :
    ∃ d', (t.key w r a).2.1.compiler j = .language d' ∧
      Beside (ApartFromGraph c.config) (c.config.rootDir.resolve r.path) (d.sessionIn w)
        (d'.sessionIn (t.key w r a).2.2) := by
  have hengine := engine_key_alike t w r a
  have hn := resolve_normal c.config.rootDir r.path
  have hbeside : Beside (ApartFromGraph c.config) (c.config.rootDir.resolve r.path).normalize
      (c.sessionIn w) (Session.resolvedModules (c.sessionIn w) r.source
        (c.config.rootDir.resolve r.path)).2 :=
    Session.resolvedModules_beside (hall.language hc (c.sessionIn w).world).settled
      (by rw [hn]; exact hs) (by rw [hn]; exact hheld)
  rw [hn] at hbeside
  generalize hafter : Session.resolvedModules (c.sessionIn w) r.source
    (c.config.rootDir.resolve r.path) = after at hbeside
  obtain ⟨modules, s⟩ := after
  have hkey : (t.key w r a).2 =
      (t₁.setCompiler i (.language s.compiler), w.update c.config.compiler.id s.world) := by
    rw [key_eq_of_ok r hfind]
    simp only [keyOf, hc, Compiler.config, LanguageCompiler.resolvedModulesIn_language, hafter]
  rw [hkey] at hengine ⊢
  by_cases hij : i = j
  · subst hij
    rw [hc] at hd
    cases hd
    have hconfig : s.compiler.config = c.config := hbeside.config
    refine ⟨s.compiler, ?_, ?_⟩
    · rw [compiler, Transformer.setCompiler, List.getD_eq_getElem?_getD, List.getElem?_set_self hi]
      rfl
    · have hengine' := hengine s.compiler.config.compiler.id
      have hbefore : (c.sessionIn w).world.engine = w.engine s.compiler.config.compiler.id := by
        rw [hconfig]
        rfl
      rw [← hbefore] at hengine'
      exact hbeside.change hengine' hbeside.disk
  · refine ⟨d, ?_, (Beside.refl _ _ (d.sessionIn w)).change (hengine _) hbeside.disk⟩
    rw [compiler, Transformer.setCompiler, List.getD_eq_getElem?_getD, List.getElem?_set_ne hij,
      ← List.getD_eq_getElem?_getD]
    exact hd

theorem process_of_find {d : LanguageCompiler} (h : t.compilerFor w host = .ok (j, t₁))
    (hd : t₁.compiler j = .language d) (source : Text) (path : Path)
    (options : TransformOptions) : t.process w source path host options =
      t₁.transform w j source (d.config.rootDir.resolve path) options := by
  rw [Transformer.process, h]
  simp only [hd]
  rfl

theorem configured_of_find (h : t.find w a = .ok (i, t₁)) :
    t.configured w a = .ok (t₁.compiler i).config := by
  rw [configured, h]
  rfl

section TwoCalls

variable (h : Reached held t w) (ha : a.IsHeld held) (hheld : (HostArgument.live host).IsHeld held)
  (calls : FullCalls t w r a r' host)
include h ha hheld calls

/-- A request for a key that spares the other file leaves its session beside the one before. -/
theorem build_of_spares (hsp : Spares t w r a r' host) {t₃ : Transformer} {j' : Nat}
    {d d' : LanguageCompiler} (hkey : t.find w a = .ok (i, t₁))
    (hfind : t.find w (.live host) = .ok (j, t₂)) (hd : t₂.compiler j = .language d)
    (hfind' : (t.key w r a).2.1.find (t.key w r a).2.2 (.live host) = .ok (j', t₃))
    (hd' : t₃.compiler j' = .language d')
    (hcompiles : d.config.compiles (d.config.rootDir.resolve r'.path) = true) :
    CompileError.verdict ((Session.shown (d'.sessionIn (t.key w r a).2.2) r'.source
        (d.config.rootDir.resolve r'.path) r'.options).build
          (d.config.rootDir.resolve r'.path).normalize r'.source).1 =
      CompileError.verdict ((Session.shown (d.sessionIn w) r'.source
        (d.config.rootDir.resolve r'.path) r'.options).build
          (d.config.rootDir.resolve r'.path).normalize r'.source).1 := by
  obtain ⟨-, hleads⟩ := find_leads h.settled.catalogued ha hkey
  obtain ⟨k, t₂', hprocess, hindex, hcompiler⟩ :=
    compilerFor_after_find h.settled.catalogued ha hheld hsp.compiler hkey
  -- The host is led to the compiler `k` before and after.
  cases hprocess.symm.trans hfind
  rw [hd] at hcompiler
  have hindex' : (t.key w r a).2.1.indexOf? host.config.canonical = some j := by
    rw [key_eq_of_ok r hkey]
    exact hindex
  have hcatalogued : Catalogued held (t.key w r a).2.1 := (h.key r ha).settled.catalogued
  obtain ⟨t₃', hprocess', hcompilers, -⟩ :=
    compilerFor_of_indexOf? (w := (t.key w r a).2.2) hcatalogued hheld hindex'
  cases hprocess'.symm.trans hfind'
  obtain ⟨hfull, hdisk⟩ := calls.key _ (configFor?_of_find hkey)
  obtain ⟨c, hc⟩ := language_of_find h ha hkey hfull
  have hconfigKey := configFor?_of_find hkey
  rw [hc] at hconfigKey hdisk
  obtain ⟨d'', hd'', hbeside⟩ := beside_of_key (r := r) (h.settled.find ha hkey).all hkey hc
    hcompiler.symm hleads.index hdisk (hsp.held _ (sessionFor?_of_find hkey hc))
  have hsame : d'' = d' := by
    rw [compiler, hcompilers, ← compiler, hd''] at hd'
    exact Compiler.language.inj hd'
  subst hsame
  have hspared := hsp.spared _ hconfigKey _ (sessionFor?_of_find hfind hd) _
    (sessionFor?_of_find hfind' hd')
  have hother := calls.other _ hconfigKey _ (configFor?_of_find hfind)
  rw [hd] at hother
  have hapart := LanguageCompiler.Session.apartFromGraph_of_isDotted (c := c.config)
    (ConfigSet.isDotted_of_compiles hcompiles)
  exact Session.build_beside hbeside
    (fun _ => LanguageCompiler.Session.apartFromGraph_of_isDotted)
    (fun p hp g hg => by rw [Path.normalize_normalize]; exact hp g hg) hapart
    (by rwa [resolve_normal]) hspared

end TwoCalls

/-! ## Scenes -/

namespace Aside

/-- A project in the directory `/project`. -/
def config : HostConfig := { rootDir := Path.ofString "/project" }

def live : LiveHost := { config }

theorem isHeld_live : (HostArgument.live live).IsHeld fun _ => config := fun _ _ => rfl

def text : HostArgument := .text config.canonical

/-- A transformer that has not been used. -/
def new : Transformer where
  registry := ({} : CompilerRegistry).register CompilerRegistry.defaultName
    ⟨0, Miniature.Engine.defaultVersion⟩

def world (files : Store) : World where
  disk.store := files
  engines := [.miniature { version := Miniature.Engine.defaultVersion }]

theorem isMiniature_world (files : Store) : (world files).IsMiniature := by
  intro id
  cases id <;> trivial

/-- A module with a number for its value, and a file that takes it for a text. -/
def module : Request where
  source := "export const value = 1;\n"
  path := Path.ofString "b.ts"

def importer : Request where
  source := "import \x7b value \x7d from \"./b\";\nexport const text: string = value;\n"
  path := Path.ofString "a.ts"

def project : World := world (({} : Store).add (Path.ofString "/project/b.ts") module.source)

/-- A declaration of a global name, and a file that uses it. -/
def declaration : Request where
  source := "declare const __DEV__: boolean;\n"
  path := Path.ofString "globals.d.ts"

def user : Request where
  source := "export const development = __DEV__;\n"
  path := Path.ofString "a.ts"

def empty : Request where
  source := []
  path := Path.ofString "a.ts"

/-- A transformer that has processed a file in another project. -/
def used (r : Request) (files : Store) : Transformer :=
  (new.process (world files) r.source r.path live r.options).2.1

theorem reached_new (files : Store) : Reached (fun _ => config) new (world files) :=
  .start new.registry none (isMiniature_world files)

theorem reached_used (r : Request) (files files' : Store) :
    Reached (fun _ => config) (used r files) (world files') :=
  .change (isMiniature_world _) ((reached_new files).process r isHeld_live)

theorem isHeld_of_nobody {host : LiveHost} {held : Nat → HostConfig} (h : host.id = none) :
    (HostArgument.live host).IsHeld held := by
  intro n hn
  rw [h] at hn
  cases hn

/-- Two calls in a project, to a transformer that has been used: a request for a key, and one to
process another file. -/
structure Scene where
  transformer : Transformer
  files : Store
  key : Request
  argument : HostArgument
  process : Request
  host : LiveHost
  reached : Reached (fun _ => config) transformer (world files)
  isHeld_argument : argument.IsHeld fun _ => config
  isHeld_host : (HostArgument.live host).IsHeld fun _ => config

namespace Scene

/-- What processing the file comes to without the request for the key, and after it. -/
def before (s : Scene) : Except TransformError.Failure TransformedSource :=
  verdict (s.transformer.process (world s.files) s.process.source s.process.path s.host
    s.process.options).1

def after (s : Scene) : Except TransformError.Failure TransformedSource :=
  let asked := s.transformer.key (world s.files) s.key s.argument
  verdict (asked.2.1.process asked.2.2 s.process.source s.process.path s.host s.process.options).1

/-- Whether the calls are as they should be. -/
def IsFull (s : Scene) : Prop :=
  FullCalls s.transformer (world s.files) s.key s.argument s.process s.host

/-- Whether the request makes no difference in a matter. -/
def Agrees (s : Scene) (m : Matter) : Prop :=
  s.transformer.Agrees (world s.files) s.key s.argument s.process s.host m

instance (s : Scene) : Decidable s.IsFull :=
  inferInstanceAs (Decidable (FullCalls ..))

instance (s : Scene) (m : Matter) : Decidable (s.Agrees m) :=
  inferInstanceAs (Decidable (s.transformer.Agrees (world s.files) s.key s.argument s.process
    s.host m))

/-- Whether the request makes a difference although it makes none in the other matters. -/
structure Turns (s : Scene) (m : Matter) : Prop where
  full : s.IsFull
  differs : s.before ≠ s.after
  others : ∀ m', m' ≠ m → s.Agrees m'

instance (s : Scene) (m : Matter) : Decidable (s.Turns m) :=
  decidable_of_iff (s.IsFull ∧ s.before ≠ s.after ∧
      (.settings ≠ m → s.Agrees .settings) ∧ (.output ≠ m → s.Agrees .output) ∧
        (.names ≠ m → s.Agrees .names) ∧ (.values ≠ m → s.Agrees .values) ∧
          (.importers ≠ m → s.Agrees .importers))
    ⟨fun h => ⟨h.1, h.2.1, Matter.forall_iff.mpr h.2.2⟩,
      fun h => ⟨h.full, h.differs, Matter.forall_iff.mp h.others⟩⟩

/-- Whether the request makes no difference in any matter. -/
structure Stands (s : Scene) : Prop where
  full : s.IsFull
  agrees : ∀ m, s.Agrees m

instance (s : Scene) : Decidable s.Stands :=
  decidable_of_iff (s.IsFull ∧ s.Agrees .settings ∧ s.Agrees .output ∧ s.Agrees .names ∧
      s.Agrees .values ∧ s.Agrees .importers)
    ⟨fun h => ⟨h.1, Matter.forall_iff.mpr h.2⟩, fun h => ⟨h.full, Matter.forall_iff.mp h.agrees⟩⟩

end Scene

/-- The module is asked about, and then a file that imports it and has a mistake. -/
def mistakenScene : Scene where
  transformer := new
  files := ({} : Store).add (Path.ofString "/project/b.ts") module.source
  key := module
  argument := text
  process := importer
  host := live
  reached := reached_new _
  isHeld_argument := trivial
  isHeld_host := isHeld_live

/-- A file that takes the number for what it is. -/
def counting : Request := { importer with
  source := "import \x7b value \x7d from \"./b\";\nexport const count: number = value;\n" }

/-- Two files, of which the second has nothing to do with the first. -/
def unrelated : Store :=
  (({} : Store).add (Path.ofString "/project/b.ts") module.source).add
    (Path.ofString "/project/c.ts") []

/-- A file is processed, another one is asked about, and the output is no longer at hand. -/
def rebuiltScene : Scene where
  transformer := used counting unrelated
  files := unrelated
  key := { empty with path := Path.ofString "c.ts" }
  argument := .live live
  process := counting
  host := live
  reached := reached_used counting unrelated unrelated
  isHeld_argument := isHeld_live
  isHeld_host := isHeld_live

/-- A host in another working directory. -/
def elsewhere (cwd : String) : LiveHost where
  config := { config with cwd := some (Path.ofString cwd) }

/-- The compilers of both calls are made for them. -/
def apartScene : Scene where
  transformer := new
  files := unrelated
  key := { empty with path := Path.ofString "c.ts" }
  argument := .live (elsewhere "/one")
  process := counting
  host := elsewhere "/two"
  reached := reached_new _
  isHeld_argument := isHeld_of_nobody rfl
  isHeld_host := isHeld_of_nobody rfl

/-- An output is at hand, but if the file is built again a mistake is found. -/
def outputScene : Scene := { rebuiltScene with
  transformer := used importer {}
  process := importer
  reached := reached_used importer {} unrelated }

/-- A name is missed, but not if the file that declares it belongs to the program. -/
def namesScene : Scene where
  transformer := used empty {}
  files := ({} : Store).add (Path.ofString "/project/globals.d.ts") declaration.source
  key := declaration
  argument := .live live
  process := user
  host := live
  reached := reached_used empty {} _
  isHeld_argument := isHeld_live
  isHeld_host := isHeld_live

/-- The module with a text for its value. -/
def edited : Request := { module with source := "export const value = \"b\";\n" }

/-- The module has been edited, which its compiler is shown by the request. -/
def valuesScene : Scene where
  transformer := used module (({} : Store).add (Path.ofString "/project/b.ts") module.source)
  files := ({} : Store).add (Path.ofString "/project/b.ts") edited.source
  key := edited
  argument := .live live
  process := importer
  host := live
  reached := reached_used module _ _
  isHeld_argument := isHeld_live
  isHeld_host := isHeld_live

def test : Request := { importer with path := Path.ofString "a.test.ts" }

/-- A host that keeps its graphs in one directory with others. -/
def caching (cwd : String) : LiveHost where
  config := { (elsewhere cwd).config with cacheDirectory := some (Path.ofString "/cache") }

/-- A test with a mistake is recorded by one compiler and found in the graph by the other. -/
def importersScene : Scene where
  transformer := new
  files := (({} : Store).add (Path.ofString "/project/b.ts") module.source).add
    (Path.ofString "/project/a.test.ts") test.source
  key := test
  argument := .live (caching "/one")
  process := module
  host := caching "/two"
  reached := reached_new _
  isHeld_argument := isHeld_of_nobody rfl
  isHeld_host := isHeld_of_nobody rfl

/-- A host that takes the file of a graph for its TypeScript configuration. -/
def pointing : LiveHost where
  config := { config with globals := [(HostConfig.optionsKey, .obj [("tsconfig",
    .str (((GraphCache.new (some (Path.ofString "/cache"))).file).getD default).text)])] }

/-- The configuration cannot be read unless the file is there. -/
def settingsScene : Scene := { importersScene with
  host := pointing
  isHeld_host := isHeld_of_nobody rfl }

/-- Nothing that is taken in for the module matters for the checks of its importer. -/
theorem mistakenScene_spares : Spares new (world mistakenScene.files) module text importer live := by
  obtain ⟨hheld, hdependents, hscripts, hread⟩ :
      (∀ s ∈ new.sessionFor? (world mistakenScene.files) text,
        s.held? (s.config.rootDir.resolve module.path) = none) ∧
      (∀ s ∈ new.sessionFor? (world mistakenScene.files) (.live live),
        s.compiler.graph.dependentsOf (s.config.rootDir.resolve importer.path).normalize = []) ∧
      (∀ s' ∈ (new.key (world mistakenScene.files) module text).2.1.sessionFor?
          (new.key (world mistakenScene.files) module text).2.2 (.live live),
        ∀ name ∈ s'.compiler.host.scriptNames, name.isDeclaration = false) ∧
      HostConfig.ofText config.canonical = .ok config := by
    decide +kernel
  refine ⟨.inr ⟨rfl, hread⟩, fun s hs t ht => ?_, fun c _ s hs s' hs' => ?_⟩
  · rw [hheld s hs] at ht
    cases ht
  · have hnone := hdependents s hs
    refine ⟨LanguageCompiler.Session.not_addsDeclaration (hscripts s' hs'), ?_, ?_⟩
    · rw [hnone]
      exact fun f hf => absurd hf List.not_mem_nil
    · rw [hnone]
      exact fun f hf => absurd hf List.not_mem_nil

end Aside

end Transformer
end TestTransform

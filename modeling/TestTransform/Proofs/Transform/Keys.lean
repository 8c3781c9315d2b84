/-
What the key of a request is made of.

A call finds the compiler for its host and asks it for the modules.  The key is the digest of
what the configuration, the request and the modules say.
-/
import TestTransform.Proofs.Config.Fingerprint
import TestTransform.Proofs.Transform.Sharing

namespace TestTransform

namespace Transformer

variable {t t' : Transformer} {w : World} {i : Nat}

theorem find_error {a : HostArgument} {e : ConfigError} (h : t.find w a = .error e) :
    a.config = .error e ∨ ∃ h, a.config = .ok h ∧ t.createCompiler w h = .error e := by
  cases a with
  | live host => exact .inr ⟨host.config, rfl, createCompiler_of_compilerFor h⟩
  | text text => exact error_of_compilerForText h

theorem found_of_find {a : HostArgument} (h : t.find w a = .ok (i, t')) :
    Found t w (fun host => a.config = .ok host) t' := by
  cases a with
  | live host =>
    exact (found_of_compilerFor h).mono fun _ hhost => by rw [hhost, HostArgument.config]
  | text text => exact found_of_compilerForText h

theorem key_eq (t : Transformer) (w : World) (r : Request) (a : HostArgument) :
    t.key w r a =
      match t.find w a with
      | .error e => (.error (.config e), t, w)
      | .ok (i, t) =>
        let (key, t, w) :=
          t.keyOf w i r.source ((t.compiler i).config.rootDir.resolve r.path) r.options
        (.ok key, t, w) := by
  cases a <;> rfl

theorem key_eq_of_error (r : Request) {a : HostArgument} {e : ConfigError}
    (h : t.find w a = .error e) : t.key w r a = (.error (.config e), t, w) := by
  rw [key_eq, h]

theorem key_eq_of_ok (r : Request) {a : HostArgument} (h : t.find w a = .ok (i, t')) :
    t.key w r a =
      let out := t'.keyOf w i r.source ((t'.compiler i).config.rootDir.resolve r.path) r.options
      (.ok out.1, out.2.1, out.2.2) := by
  rw [key_eq, h]

/-- Only the times of the modules are taken from the disk. -/
theorem moduleParts_congr {d d' : Disk} {modules : List Path}
    (h : ∀ m ∈ modules, d.modified m = d'.modified m) :
    moduleParts d modules = moduleParts d' modules := by
  rw [moduleParts, moduleParts, List.flatMap_def, List.flatMap_def]
  congr 1
  refine List.map_congr_left fun m hm => ?_
  rw [timeText, timeText, moduleTime, moduleTime, h m hm]

/-- The key of a compiler, from the modules that it finds. -/
theorem keyOf_eq (t : Transformer) (w : World) (i : Nat) (source : Text) (file : Path)
    (options : TransformOptions) :
    (t.keyOf w i source file options).1 =
      Digest.ofParts ((keyParts (t.compiler i).config t.fallback source file options
        ((t.compiler i).resolvedModulesIn w source file).2.2.disk
        ((t.compiler i).resolvedModulesIn w source file).1).map Text.utf8) := by
  rw [keyOf]

/-- What the key of a type-checking compiler is made of. -/
theorem keyOf_language {c : LanguageCompiler} (hc : t.compiler i = .language c) (source : Text)
    (file : Path) (options : TransformOptions) :
    (t.keyOf w i source file options).1 = Digest.ofParts
      ((keyParts c.config t.fallback source file options
        ((c.sessionIn w).resolvedModules source file).2.world.disk
        ((c.sessionIn w).resolvedModules source file).1).map Text.utf8) := by
  rw [keyOf_eq, hc, LanguageCompiler.resolvedModulesIn_language, Compiler.config, World.update]

theorem keyOf_isolated {config : ConfigSet} (hc : t.compiler i = .isolated config) (source : Text)
    (file : Path) (options : TransformOptions) :
    (t.keyOf w i source file options).1 = Digest.ofParts
      ((keyParts config t.fallback source file options w.disk []).map Text.utf8) := by
  rw [keyOf_eq, hc, Compiler.resolvedModulesIn_isolated, Compiler.config, World.update,
    World.surroundings]

/-! ## The digest -/

/-- The configuration that a request is served under. -/
def configFor? (t : Transformer) (w : World) (a : HostArgument) : Option ConfigSet :=
  match t.find w a with
  | .ok (i, t) => some (t.compiler i).config
  | .error _ => none

theorem configFor?_of_find {a : HostArgument} (h : t.find w a = .ok (i, t')) :
    t.configFor? w a = some (t'.compiler i).config := by
  rw [configFor?, h]

/-- A key is given under a configuration set. -/
theorem exists_configFor?_of_key {r : Request} {a : HostArgument} {k : Text}
    (h : (t.key w r a).1 = .ok k) : ∃ c, t.configFor? w a = some c := by
  cases hfind : t.find w a with
  | error e =>
    rw [key_eq_of_error r hfind] at h
    cases h
  | ok found =>
    obtain ⟨i, t'⟩ := found
    exact ⟨_, configFor?_of_find hfind⟩

/-- What the key of a request is the digest of, if there is one. -/
def hashedFor? (t : Transformer) (w : World) (r : Request) (a : HostArgument) :
    Option (List Text) :=
  match t.find w a with
  | .ok (i, t) =>
    let c := t.compiler i
    let file := c.config.rootDir.resolve r.path
    let (modules, _, w) := c.resolvedModulesIn w r.source file
    some (keyParts c.config t.fallback r.source file r.options w.disk modules)
  | .error _ => none

theorem exists_parts_of_find {a : HostArgument} (h : t.find w a = .ok (i, t')) (r : Request) :
    ∃ disk modules, t.hashedFor? w r a = some (keyParts (t'.compiler i).config t'.fallback
        r.source ((t'.compiler i).config.rootDir.resolve r.path) r.options disk modules) ∧
      (t.key w r a).1 = .ok (Digest.ofParts ((keyParts (t'.compiler i).config t'.fallback r.source
        ((t'.compiler i).config.rootDir.resolve r.path) r.options disk modules).map Text.utf8)) := by
  rw [key_eq_of_ok r h, hashedFor?, h]
  simp only [keyOf]
  generalize Compiler.resolvedModulesIn w (t'.compiler i) r.source
    ((t'.compiler i).config.rootDir.resolve r.path) = out
  obtain ⟨modules, after, w'⟩ := out
  exact ⟨w'.disk, modules, rfl, rfl⟩

/-- Whether the digests behind the keys of two requests tell apart what they are taken of. -/
structure Faithful (t : Transformer) (w : World) (r : Request) (a : HostArgument) (w' : World)
    (r' : Request) (a' : HostArgument) : Prop where
  fits : ∀ ps ∈ t.hashedFor? w r a, ∀ p ∈ ps, Digest.Fits p.utf8
  fits' : ∀ ps ∈ t.hashedFor? w' r' a', ∀ p ∈ ps, Digest.Fits p.utf8
  keys : ∀ ps ∈ t.hashedFor? w r a, ∀ qs ∈ t.hashedFor? w' r' a',
    Blake3.TellsApart (Digest.encodeParts (ps.map Text.utf8))
      (Digest.encodeParts (qs.map Text.utf8))
  configs : ∀ c ∈ t.configFor? w a, ∀ d ∈ t.configFor? w' a',
    Blake3.TellsApart c.fingerprint.compact.utf8 d.fingerprint.compact.utf8

/-- What two requests with the same key have in common. -/
structure SameKey (c d : ConfigSet) (r r' : Request) : Prop where
  configs : c.Matches d
  source : r.source = r'.source
  file : c.rootDir.resolve r.path = d.rootDir.resolve r'.path

theorem forall_mem_utf8 {ps : List Text} (h : ∀ p ∈ ps, Digest.Fits p.utf8) :
    ∀ p ∈ ps.map Text.utf8, Digest.Fits p := by
  intro p hp
  obtain ⟨t, ht, rfl⟩ := List.mem_map.mp hp
  exact h t ht

/-- Requests with the same key are for the same source and file, under configurations that the
digest does not tell apart. -/
theorem sameKey {w' : World} {r r' : Request} {a a' : HostArgument} {k : Text}
    (hkey : (t.key w r a).1 = .ok k) (hkey' : (t.key w' r' a').1 = .ok k)
    (hf : Faithful t w r a w' r' a') {c d : ConfigSet} (hc : t.configFor? w a = some c)
    (hd : t.configFor? w' a' = some d) (hs : c.options.Separate) (hs' : d.options.Separate) :
    SameKey c d r r' := by
  have hconfigs := hf.configs c hc d hd
  cases hfind : t.find w a with
  | error e =>
    rw [configFor?, hfind] at hc
    cases hc
  | ok found =>
    cases hfind' : t.find w' a' with
    | error e =>
      rw [configFor?, hfind'] at hd
      cases hd
    | ok found' =>
      obtain ⟨i, t₁⟩ := found
      obtain ⟨j, t₂⟩ := found'
      rw [configFor?_of_find hfind] at hc
      rw [configFor?_of_find hfind'] at hd
      obtain ⟨disk, modules, hparts, hdigest⟩ := exists_parts_of_find hfind r
      obtain ⟨disk', modules', hparts', hdigest'⟩ := exists_parts_of_find hfind' r'
      rw [Option.some.inj hc] at hparts hdigest
      rw [Option.some.inj hd] at hparts' hdigest'
      rw [hkey] at hdigest
      rw [hkey'] at hdigest'
      have hbytes := hf.keys _ hparts _ hparts' (Except.ok.inj (hdigest.symm.trans hdigest'))
      have hlists := Digest.encodeParts_injective (forall_mem_utf8 (hf.fits _ hparts))
        (forall_mem_utf8 (hf.fits' _ hparts')) hbytes
      have hequal := Digest.map_utf8_injective hlists
      simp only [keyParts, List.cons_append, List.nil_append, List.cons.injEq] at hequal
      obtain ⟨hcache, -, -, hsource, hfile, -⟩ := hequal
      have hfingerprint : c.fingerprint.compact = d.fingerprint.compact :=
        Text.utf8_injective (hconfigs hcache)
      exact ⟨ConfigSet.matches_of_fingerprint hs hs' hfingerprint, hsource,
        congrArg Path.mk hfile⟩

end Transformer
end TestTransform

/-
What a key vouches for.

Requests with the same key are for the same file and source, and under configurations that
compile alike.  If both are served by transformers that have not been used, they come to the
same verdict, as far as it rests on nothing that is left out of the key: whether the caller
takes ECMAScript modules, the graph in the cache directory, and the outputs of referenced
projects.
-/
import TestTransform.Proofs.Compiler.Created
import TestTransform.Proofs.Transform.Aside
import TestTransform.Proofs.Transform.Current
import TestTransform.Proofs.Transform.KeyRecord

namespace TestTransform

/-! ## New compilers -/

namespace Compiler

open CompileError (verdict)

variable {c d : ConfigSet} {w w' : World} {file : Path} {options options' : TransformOptions}

theorem compileIn_isolated (hc : c.isolated = true) (content : Text) (file : Path)
    (options : TransformOptions) : ((create w.view c).compileIn w content file options).1 =
      (IsolatedCompiler.compile c content file options (w.surroundings c.compiler.id)).1 := by
  rw [create, if_pos hc]
  rfl

theorem compileIn_language (hc : c.isolated = false) (content : Text) (file : Path)
    (options : TransformOptions) : ((create w.view c).compileIn w content file options).1 =
      ((LanguageCompiler.newSession c (w.surroundings c.compiler.id)).compile content file
        options).1 := by
  rw [create, if_neg (by rw [hc]; exact Bool.false_ne_true)]
  rfl

/-- New compilers for isolated modules come to the same verdict wherever they find the same
output of a referenced project. -/
theorem verdict_isolated (a : c.Alike d) (hc : c.isolated = true)
    (hengines : w.engines = w'.engines)
    (hesm : c.useEsm = true → options.supportsEsm = options'.supportsEsm)
    (hsame : IsolatedCompiler.SameOutput c d w.disk w'.disk file.normalize) (content : Text) :
    verdict ((create w.view c).compileIn w content file options).1 =
      verdict ((create w'.view d).compileIn w' content file options').1 := by
  have hengine : Engine.Alike (w.surroundings c.compiler.id).engine
      (w'.surroundings d.compiler.id).engine := by
    show Engine.Alike (w.engine c.compiler.id) (w'.engine d.compiler.id)
    rw [World.engine, World.engine, hengines, a.compiler]
    exact .refl _
  rw [compileIn_isolated hc, compileIn_isolated (by rw [← a.isolated, hc])]
  exact IsolatedCompiler.compile_alike a hengine hesm hsame content

/-- New compilers come to the same verdict in one world if they are about the same project. -/
theorem verdict_created (a : c.Alike d) (hfiles : c.fileNames = d.fileNames)
    (hreferences : c.references = d.references)
    (hgraph : c.isolated = false →
      LanguageCompiler.foundGraph w.view c = LanguageCompiler.foundGraph w.view d)
    (hesm : c.useEsm = true → options.supportsEsm = options'.supportsEsm) (content : Text)
    (file : Path) : verdict ((create w.view c).compileIn w content file options).1 =
      verdict ((create w.view d).compileIn w content file options').1 := by
  cases hc : c.isolated with
  | true =>
    refine verdict_isolated a hc rfl hesm ⟨?_, fun _ _ => rfl, fun _ _ => rfl⟩ content
    rw [IsolatedCompiler.outputPath?, IsolatedCompiler.outputPath?, ConfigSet.referenceFor?,
      hreferences, ConfigSet.referenceFor?]
  | false =>
    have hproject : LanguageCompiler.SameProject (w.surroundings d.compiler.id).view c d :=
      ⟨hfiles, hgraph hc⟩
    rw [compileIn_language hc, compileIn_language (by rw [← a.isolated, hc]), a.compiler]
    exact LanguageCompiler.compile_newSession a hproject rfl (.refl _) hesm content file

end Compiler

namespace Transformer

open TransformError (verdict)

variable {t t' : Transformer} {w w' : World} {i : Nat}

/-! ## New transformers -/

/-- A new transformer works with the compiler that it makes. -/
theorem IsNew.process (hnew : t.IsNew) {host : LiveHost} {c : ConfigSet}
    (hc : SetsUp t w host.config c) (r : Request) : ∃ i t', Makes t w host.config c i t' ∧
      t.process w r.source r.path host r.options =
        t'.transform w i r.source (c.rootDir.resolve r.path) r.options := by
  cases hfind : t.find w (.live host) with
  | error e =>
    obtain ⟨codes, hcodes, hbuild⟩ := hc
    rcases find_error hfind with herror | ⟨h, hh, herror⟩
    · cases herror
    · cases hh
      simp only [createCompiler, hcodes, hbuild, bind, Except.bind] at herror
      cases herror
  | ok found =>
    obtain ⟨i, t'⟩ := found
    obtain ⟨h, d, hh, m⟩ := hnew.find hfind
    cases hh
    rw [m.setUp.unique hc] at m
    refine ⟨i, t', m, ?_⟩
    rw [process_eq, hfind]
    show t'.transform w i r.source ((t'.compiler i).config.rootDir.resolve r.path) r.options = _
    rw [m.config]

/-- New transformers come to the same verdict on a file if the compilers that they make do. -/
theorem IsNew.verdict_process (hnew : t.IsNew) {host host' : LiveHost} {c d : ConfigSet}
    (hc : SetsUp t w host.config c) (hd : SetsUp t w' host'.config d) (a : c.Alike d)
    {r r' : Request} (hsource : r.source = r'.source)
    (hfile : c.rootDir.resolve r.path = d.rootDir.resolve r'.path)
    (hcompile : CompileError.verdict ((Compiler.create w.view c).compileIn w r'.source
        (d.rootDir.resolve r'.path) r.options).1 =
      CompileError.verdict ((Compiler.create w'.view d).compileIn w' r'.source
        (d.rootDir.resolve r'.path) r'.options).1) :
    verdict (t.process w r.source r.path host r.options).1 =
      verdict (t.process w' r'.source r'.path host' r'.options).1 := by
  obtain ⟨i, t₁, m, hprocess⟩ := hnew.process hc r
  obtain ⟨j, t₂, m', hprocess'⟩ := hnew.process hd r'
  rw [hprocess, hprocess', hsource, hfile]
  refine verdict_transform ?_ ?_ (m.fallback.trans m'.fallback.symm) fun _ => ?_
  · rw [m.config, m'.config]
    exact a.shouldStringify _
  · rw [m.config, m'.config]
    exact a.allowsJs
  · rw [m.compiler, m'.compiler]
    exact hcompile

/-! ## What is hashed -/

/-- Whether the same is hashed for two requests: their configurations have one fingerprint, and
`rest` are the other parts of the keys of both. -/
@[mk_iff]
structure HashedAlike (t : Transformer) (w : World) (r : Request) (a : HostArgument) (w' : World)
    (r' : Request) (a' : HostArgument) (rest : List Text) : Prop where
  fingerprints : (t.configFor? w a).map ConfigSet.fingerprint =
    (t.configFor? w' a').map ConfigSet.fingerprint
  parts : (t.hashedFor? w r a).map List.tail = some rest
  parts' : (t.hashedFor? w' r' a').map List.tail = some rest
  short : ∀ p ∈ rest, p.length < 2 ^ 62

instance {r r' : Request} {a a' : HostArgument} {rest : List Text} :
    Decidable (HashedAlike t w r a w' r' a' rest) :=
  decidable_of_iff' _ (hashedAlike_iff ..)

/-- The first thing that is hashed is the digest of the configuration. -/
theorem exists_tail_of_hashedFor? {r : Request} {a : HostArgument} {ps : List Text}
    (h : t.hashedFor? w r a = some ps) : ∃ c, t.configFor? w a = some c ∧
      ps = c.cacheKey :: ps.tail ∧ (t.key w r a).1 = .ok (Digest.ofParts (ps.map Text.utf8)) := by
  cases hfind : t.find w a with
  | error e =>
    rw [hashedFor?, hfind] at h
    cases h
  | ok found =>
    obtain ⟨i, t'⟩ := found
    obtain ⟨disk, modules, hparts, hkey⟩ := exists_parts_of_find hfind r
    rw [h] at hparts
    cases hparts
    exact ⟨(t'.compiler i).config, configFor?_of_find hfind, rfl, hkey⟩

/-- Requests for which the same is hashed have the same key, and nothing was mistaken. -/
theorem HashedAlike.exists_key {r r' : Request} {a a' : HostArgument} {rest : List Text}
    (x : HashedAlike t w r a w' r' a' rest) : ∃ k, (t.key w r a).1 = .ok k ∧
      (t.key w' r' a').1 = .ok k ∧ Faithful t w r a w' r' a' := by
  obtain ⟨ps, hps, htail⟩ := Option.map_eq_some_iff.mp x.parts
  obtain ⟨qs, hqs, htail'⟩ := Option.map_eq_some_iff.mp x.parts'
  obtain ⟨c, hc, hhead, hkey⟩ := exists_tail_of_hashedFor? hps
  obtain ⟨d, hd, hhead', hkey'⟩ := exists_tail_of_hashedFor? hqs
  have hfingerprint : c.fingerprint = d.fingerprint := by
    have h := x.fingerprints
    rw [hc, hd] at h
    exact Option.some.inj h
  have hsame : qs = ps := by
    rw [hhead', hhead, htail, htail', ConfigSet.cacheKey, ← hfingerprint, ConfigSet.cacheKey]
  subst hsame
  have hfits : ∀ p ∈ qs, Digest.Fits p.utf8 := by
    rw [hhead, List.forall_mem_cons]
    exact ⟨c.fits_cacheKey, fun p hp => Digest.fits_of_length (x.short p (htail' ▸ hp))⟩
  refine ⟨_, hkey, hkey', ?_, ?_, ?_, ?_⟩
  · rintro _ hmem
    cases hps.symm.trans hmem
    exact hfits
  · rintro _ hmem
    cases hqs.symm.trans hmem
    exact hfits
  · rintro _ hmem _ hmem' _
    cases hps.symm.trans hmem
    cases hqs.symm.trans hmem'
    rfl
  · rintro _ hmem _ hmem' _
    cases hc.symm.trans hmem
    cases hd.symm.trans hmem'
    rw [hfingerprint]

/-! ## Requests with the same key -/

/-- Whether two requests agree on what their keys say nothing of. -/
structure AgreeBesides (w : World) (c d : ConfigSet) (r r' : Request) : Prop where
  supportsEsm : c.useEsm = true → r.options.supportsEsm = r'.options.supportsEsm
  graph : c.isolated = false →
    LanguageCompiler.foundGraph w.view c = LanguageCompiler.foundGraph w.view d

/-- Requests that a transformer gives the same key come to the same verdict on new
transformers, if they agree on whether the caller takes ECMAScript modules, as far as these are
wanted, and if the same graph is in their cache directories. -/
theorem process_of_key {r r' : Request} {a a' : HostArgument} {host host' : LiveHost} {k : Text}
    (ha : a.config = .ok host.config) (ha' : a'.config = .ok host'.config)
    (hcurrent : t.IsCurrent w a) (hcurrent' : t.IsCurrent w a')
    (hkey : (t.key w r a).1 = .ok k) (hkey' : (t.key w r' a').1 = .ok k)
    (hf : Faithful t w r a w r' a')
    (hagree : ∀ c ∈ t.configFor? w a, ∀ d ∈ t.configFor? w a', AgreeBesides w c d r r') :
    verdict (t.anew.process w r.source r.path host r.options).1 =
      verdict (t.anew.process w r'.source r'.path host' r'.options).1 := by
  have hnew : t.anew.IsNew := isNew _ _
  obtain ⟨c, hconfig⟩ := exists_configFor?_of_key hkey
  obtain ⟨d, hconfig'⟩ := exists_configFor?_of_key hkey'
  obtain ⟨codes, hcodes, hbuild⟩ := hcurrent _ ha c hconfig
  obtain ⟨codes', hcodes', hbuild'⟩ := hcurrent' _ ha' d hconfig'
  have same := sameKey hkey hkey' hf hconfig hconfig' (ConfigSet.separate_of_build hbuild)
    (ConfigSet.separate_of_build hbuild')
  have hagreed := hagree c hconfig d hconfig'
  have halike := ConfigSet.alike_of_matches hbuild hbuild' same.configs
  obtain ⟨hfiles, hreferences⟩ := ConfigSet.inputs_of_matches hbuild hbuild' same.configs
  exact hnew.verdict_process ⟨codes, hcodes, hbuild⟩ ⟨codes', hcodes', hbuild'⟩ halike same.source
    same.file (Compiler.verdict_created halike hfiles hreferences hagreed.graph
      hagreed.supportsEsm _ _)

namespace Vouching

/-- A host that works in another directory. -/
def elsewhere : LiveHost where
  config := { Aside.config with cwd := some (Path.ofString "/elsewhere") }

/-- A host that has its graphs in a directory. -/
def caching (dir : String) : LiveHost where
  config := { Aside.config with cacheDirectory := some (Path.ofString dir) }

/-- A host that wants modules compiled on their own, and ECMAScript modules if `useEsm` is set. -/
def isolating (useEsm : Bool) : LiveHost where
  config := { Aside.config with
    globals := [(HostConfig.optionsKey,
      .obj [("isolatedModules", .bool true), ("useESM", .bool useEsm)])] }

/-- The importer under another name for its file. -/
def dotted : Request := { Aside.importer with path := Path.ofString "./a.ts" }

theorem isNew_new : IsNew Aside.new := isNew _ _

/-- A module that is compiled for a caller that takes ECMAScript modules, or for one that does
not. -/
def module (supportsEsm : Bool) : Request := { Aside.module with options := { supportsEsm } }

/-- A test that imports the module by mistake, and the project with a graph that says so. -/
def test : Request := { Aside.importer with path := Path.ofString "a.test.ts" }

def recorded : World :=
  (Aside.new.key (Aside.world (Aside.project.disk.store.add (Path.ofString "/project/a.test.ts")
    test.source)) test (.live (caching "one"))).2.2

/-- The transformer after it has been asked for the key of the module. -/
def used : Transformer := ((Call.key Aside.module Aside.text).after Aside.new Aside.project).1

theorem usedIn_used (h : HostConfig.ofText Aside.config.canonical = .ok Aside.config) :
    UsedIn (fun _ => Aside.config) Aside.project used := by
  refine .call _ (.start Aside.new.registry none) (.refl _) trivial fun h' hh => ?_
  rw [h] at hh
  cases hh
  intro n hn
  cases hn

end Vouching

/-- The mistake in a file is found in whatever directory the host works, and whichever name the
file goes by. -/
theorem process_of_key_elsewhere :
    (Vouching.used.anew.process Aside.project Aside.importer.source Aside.importer.path Aside.live
      {}).1.isOk = false ∧
    verdict (Vouching.used.anew.process Aside.project Aside.importer.source Aside.importer.path
        Aside.live {}).1 =
      verdict (Vouching.used.anew.process Aside.project Vouching.dotted.source
        Vouching.dotted.path Vouching.elsewhere {}).1 := by
  obtain ⟨hhashed, hcache, hcache', hread, hread', hmistake⟩ :
      HashedAlike Vouching.used Aside.project Aside.importer (.live Aside.live) Aside.project
        Vouching.dotted (.live Vouching.elsewhere) ["/project", "instrument:off",
          Aside.importer.source, "/project/a.ts", "/project/b.ts", "1000"] ∧
      (Vouching.used.configFor? Aside.project (.live Aside.live)).map (·.cacheDirectory) =
        some none ∧
      (Vouching.used.configFor? Aside.project (.live Vouching.elsewhere)).map
        (·.cacheDirectory) = some none ∧
      HostConfig.ofText Aside.config.canonical = .ok Aside.config ∧
      HostConfig.ofText Vouching.elsewhere.config.canonical = .ok Vouching.elsewhere.config ∧
      (Vouching.used.anew.process Aside.project Aside.importer.source Aside.importer.path
        Aside.live {}).1.isOk = false := by
    decide +kernel
  obtain ⟨k, hkey, hkey', hf⟩ := hhashed.exists_key
  have hused := Vouching.usedIn_used hread
  have hcurrent : Vouching.used.IsCurrent Aside.project (.live Aside.live) :=
    hused.isCurrent Aside.isHeld_live
      (HostArgument.isReadable_of_ofText hread (fun n hn => by cases hn) none)
  have hcurrent' : Vouching.used.IsCurrent Aside.project (.live Vouching.elsewhere) :=
    hused.isCurrent (fun n hn => by cases hn)
      (HostArgument.isReadable_of_ofText hread' (fun n hn => by cases hn) none)
  refine ⟨hmistake, process_of_key rfl rfl hcurrent hcurrent' hkey hkey' hf ?_⟩
  intro c hc d hd
  rw [hc] at hcache
  rw [hd] at hcache'
  refine ⟨fun _ => rfl, fun _ => ?_⟩
  have hnone : c.cacheDirectory = none := Option.some.inj hcache
  have hnone' : d.cacheDirectory = none := Option.some.inj hcache'
  rw [LanguageCompiler.foundGraph, LanguageCompiler.foundGraph, hnone, hnone']

/-- Both conditions are needed.  The key does not say whether the caller takes ECMAScript
modules, and not which tests are recorded to import a module. -/
theorem not_always_vouched :
    (¬ ∀ t w r r' a a' host host' k, IsNew t → a.config = .ok host.config →
      a'.config = .ok host'.config → (t.key w r a).1 = .ok k → (t.key w r' a').1 = .ok k →
      Faithful t w r a w r' a' →
      (∀ c ∈ t.configFor? w a, ∀ d ∈ t.configFor? w a',
        LanguageCompiler.foundGraph w.view c = LanguageCompiler.foundGraph w.view d) →
      verdict (t.process w r.source r.path host r.options).1 =
        verdict (t.process w r'.source r'.path host' r'.options).1) ∧
    (¬ ∀ t w r r' a a' host host' k, IsNew t → a.config = .ok host.config →
      a'.config = .ok host'.config → (t.key w r a).1 = .ok k → (t.key w r' a').1 = .ok k →
      Faithful t w r a w r' a' → r.options.supportsEsm = r'.options.supportsEsm →
      verdict (t.process w r.source r.path host r.options).1 =
        verdict (t.process w r'.source r'.path host' r'.options).1) := by
  constructor
  · intro h
    obtain ⟨hhashed, hne⟩ :
        HashedAlike Aside.new Aside.project (Vouching.module false)
          (.live (Vouching.isolating true)) Aside.project (Vouching.module true)
          (.live (Vouching.isolating true))
          ["/project", "instrument:off", Aside.module.source, "/project/b.ts"] ∧
        verdict (Aside.new.process Aside.project (Vouching.module false).source
            (Vouching.module false).path (Vouching.isolating true)
            (Vouching.module false).options).1 ≠
          verdict (Aside.new.process Aside.project (Vouching.module true).source
            (Vouching.module true).path (Vouching.isolating true)
            (Vouching.module true).options).1 := by
      decide +kernel
    obtain ⟨k, hkey, hkey', hf⟩ := hhashed.exists_key
    have hgraph : ∀ c ∈ Aside.new.configFor? Aside.project (.live (Vouching.isolating true)),
        ∀ d ∈ Aside.new.configFor? Aside.project (.live (Vouching.isolating true)),
          LanguageCompiler.foundGraph Aside.project.view c =
            LanguageCompiler.foundGraph Aside.project.view d := by
      intro c hc d hd
      rw [Option.some.inj (hc.symm.trans hd)]
    exact hne (h Aside.new Aside.project (Vouching.module false) (Vouching.module true)
      (.live (Vouching.isolating true)) (.live (Vouching.isolating true))
      (Vouching.isolating true) (Vouching.isolating true) k Vouching.isNew_new rfl rfl hkey hkey'
      hf hgraph)
  · intro h
    obtain ⟨hhashed, hne⟩ :
        HashedAlike Aside.new Vouching.recorded Aside.module (.live (Vouching.caching "one"))
          Vouching.recorded Aside.module (.live (Vouching.caching "two"))
          ["/project", "instrument:off", Aside.module.source, "/project/b.ts"] ∧
        verdict (Aside.new.process Vouching.recorded Aside.module.source Aside.module.path
            (Vouching.caching "one") Aside.module.options).1 ≠
          verdict (Aside.new.process Vouching.recorded Aside.module.source Aside.module.path
            (Vouching.caching "two") Aside.module.options).1 := by
      decide +kernel
    obtain ⟨k, hkey, hkey', hf⟩ := hhashed.exists_key
    exact hne (h Aside.new Vouching.recorded Aside.module Aside.module
      (.live (Vouching.caching "one")) (.live (Vouching.caching "two")) (Vouching.caching "one")
      (Vouching.caching "two") k Vouching.isNew_new rfl rfl hkey hkey' hf rfl)

/-- A request for isolated modules that has the same key on two disks comes to the same verdict
on both, if the same is found where the output of a referenced project is looked for. -/
theorem process_of_key_isolated (hnew : t.IsNew) {disk : Disk} {r : Request} {a : HostArgument}
    {host : LiveHost} {o : HostOptions} {k : Text} (ha : a.config = .ok host.config)
    (ho : host.config.options = .ok o) (hisolated : o.isolatedModules = true)
    (hkey : (t.key w r a).1 = .ok k) (hkey' : (t.key { w with disk } r a).1 = .ok k)
    (hf : Faithful t w r a { w with disk } r a)
    (hsame : ∀ c ∈ t.configFor? w a, ∀ d ∈ t.configFor? { w with disk } a,
      IsolatedCompiler.SameOutput c d w.disk disk (c.rootDir.resolve r.path)) :
    verdict (t.process w r.source r.path host r.options).1 =
      verdict (t.process { w with disk } r.source r.path host r.options).1 := by
  obtain ⟨c, hconfig⟩ := exists_configFor?_of_key hkey
  obtain ⟨d, hconfig'⟩ := exists_configFor?_of_key hkey'
  obtain ⟨codes, hcodes, hbuild⟩ := hnew.isCurrent w a _ ha c hconfig
  obtain ⟨codes', hcodes', hbuild'⟩ := hnew.isCurrent _ a _ ha d hconfig'
  have same := sameKey hkey hkey' hf hconfig hconfig' (ConfigSet.separate_of_build hbuild)
    (ConfigSet.separate_of_build hbuild')
  have halike := ConfigSet.alike_of_matches hbuild hbuild' same.configs
  have hmode : c.isolated = true := by
    obtain ⟨o', resolved, hfrom⟩ := ConfigSet.build_eq_ok hbuild
    have hoptions := hfrom.options
    rw [ho] at hoptions
    cases hoptions
    rw [hfrom.eq]
    exact hisolated
  have hengines : w.engines = { w with disk }.engines := rfl
  refine hnew.verdict_process ⟨codes, hcodes, hbuild⟩ ⟨codes', hcodes', hbuild'⟩ halike same.source
    same.file (Compiler.verdict_isolated halike hmode hengines (fun _ => rfl) ?_ _)
  rw [resolve_normal, ← same.file]
  exact hsame c hconfig d hconfig'

namespace Vouching

/-- A project that refers to another one, with the output that was built for a file of that, and
with a file of its own. -/
def built (output own : Text) : World := Aside.world
  ((((({} : Store).add (Path.ofString "/project/tsconfig.json")
    "\x7b\"references\": [\x7b\"path\": \"lib\"\x7d]\x7d").add
    (Path.ofString "/project/lib/tsconfig.json") "\x7b\x7d").add
    (Path.ofString "/project/lib/a.js") output).add (Path.ofString "/project/b.ts") own)

/-- A file of the project that is referred to. -/
def referenced : Request := { Aside.empty with path := Path.ofString "lib/a.ts" }

/-- The file itself and its output. -/
def file : Path := Path.ofString "/project/lib/a.ts"

def output : Path := Path.ofString "/project/lib/a.js"

def rest : List Text := ["/project", "instrument:off", [], file.text]

/-- In the project the file is where its output is looked for. -/
def Placed (w : World) : Prop :=
  (Aside.new.configFor? w (.live (isolating false))).map
    (fun c => (c.rootDir.resolve referenced.path, IsolatedCompiler.outputPath? c file)) =
      some (file, some output)

instance (w : World) : Decidable (Placed w) := inferInstanceAs (Decidable (_ = _))

theorem Placed.outputPath? {w : World} (h : Placed w) {c : ConfigSet}
    (hc : c ∈ Aside.new.configFor? w (.live (isolating false))) :
    c.rootDir.resolve referenced.path = file ∧
      IsolatedCompiler.outputPath? c file = some output := by
  rw [Placed, hc] at h
  exact Prod.mk.inj (Option.some.inj h)

end Vouching

/-- The output of a file is given whatever becomes of other files. -/
theorem process_of_key_isolated_built :
    (Aside.new.process (Vouching.built "x;" []) Vouching.referenced.source
      Vouching.referenced.path (Vouching.isolating false)
      Vouching.referenced.options).1.isOk = true ∧
    verdict (Aside.new.process (Vouching.built "x;" []) Vouching.referenced.source
        Vouching.referenced.path (Vouching.isolating false) Vouching.referenced.options).1 =
      verdict (Aside.new.process (Vouching.built "x;" "let y = 1;") Vouching.referenced.source
        Vouching.referenced.path (Vouching.isolating false) Vouching.referenced.options).1 := by
  obtain ⟨hhashed, hplaced, hplaced', hcompiled⟩ :
      HashedAlike Aside.new (Vouching.built "x;" []) Vouching.referenced
        (.live (Vouching.isolating false)) (Vouching.built "x;" "let y = 1;") Vouching.referenced
        (.live (Vouching.isolating false)) Vouching.rest ∧
      Vouching.Placed (Vouching.built "x;" []) ∧
      Vouching.Placed (Vouching.built "x;" "let y = 1;") ∧
      (Aside.new.process (Vouching.built "x;" []) Vouching.referenced.source
        Vouching.referenced.path (Vouching.isolating false)
        Vouching.referenced.options).1.isOk = true := by
    decide +kernel
  obtain ⟨k, hkey, hkey', hf⟩ := hhashed.exists_key
  refine ⟨hcompiled, process_of_key_isolated Vouching.isNew_new rfl rfl rfl hkey hkey' hf ?_⟩
  intro c hc d hd
  obtain ⟨hfile, hpath⟩ := hplaced.outputPath? hc
  obtain ⟨-, hpath'⟩ := hplaced'.outputPath? hd
  rw [hfile]
  refine ⟨hpath.trans hpath'.symm, ?_, ?_⟩
  · intro q hq
    rw [hpath] at hq
    cases hq
    decide +kernel
  · intro q hq
    rw [hpath] at hq
    cases hq
    decide +kernel

/-- The output of a referenced project is not in the key, so a change of it is missed. -/
theorem not_always_vouched_isolated : ¬ ∀ t w disk r a host o k, IsNew t →
    a.config = .ok host.config → host.config.options = .ok o → o.isolatedModules = true →
    (t.key w r a).1 = .ok k → (t.key { w with disk } r a).1 = .ok k →
    Faithful t w r a { w with disk } r a →
      verdict (t.process w r.source r.path host r.options).1 =
        verdict (t.process { w with disk } r.source r.path host r.options).1 := by
  intro h
  obtain ⟨hhashed, hne⟩ :
      HashedAlike Aside.new (Vouching.built "x;" []) Vouching.referenced
        (.live (Vouching.isolating false)) (Vouching.built "y;" []) Vouching.referenced
        (.live (Vouching.isolating false)) Vouching.rest ∧
      verdict (Aside.new.process (Vouching.built "x;" []) Vouching.referenced.source
          Vouching.referenced.path (Vouching.isolating false) Vouching.referenced.options).1 ≠
        verdict (Aside.new.process (Vouching.built "y;" []) Vouching.referenced.source
          Vouching.referenced.path (Vouching.isolating false) Vouching.referenced.options).1 := by
    decide +kernel
  obtain ⟨k, hkey, hkey', hf⟩ := hhashed.exists_key
  exact hne (h Aside.new (Vouching.built "x;" []) (Vouching.built "y;" []).disk
    Vouching.referenced (.live (Vouching.isolating false)) (Vouching.isolating false)
    { isolatedModules := true } k Vouching.isNew_new rfl rfl rfl hkey hkey' hf)

end Transformer
end TestTransform

/-
The keys of transformers that share a project.

Whatever a key is made from, an entry of a graph that somebody wrote, an entry of the
compiler's own graph or a new walk, it is the key that a transformer would give which has
not been used and finds no graph.
-/
import TestTransform.Proofs.Transform.Keys

namespace TestTransform

namespace Sharing

open Transformer

variable {s : Sharing} {t t' : Transformer} {w : World} {i : Nat}

/-! ## Configurations -/

/-- What the project says of a configuration, as it was at the start. -/
def configFor (s : Sharing) (registry : CompilerRegistry) (h : HostConfig) :
    Except ConfigError ConfigSet := do
  let codes ← environmentCodes s.world.ignoreCodes
  (ConfigSet.build s.world.view registry codes h).map ConfigSet.withoutInputs

/-- Whether a configuration set is the one for a configuration. -/
def IsFor (s : Sharing) (registry : CompilerRegistry) (h : HostConfig) (c : ConfigSet) : Prop :=
  s.configFor registry h = .ok c.withoutInputs

theorem IsFor.host {registry : CompilerRegistry} {h : HostConfig} {c : ConfigSet}
    (hc : s.IsFor registry h c) : c.host = h := by
  rw [IsFor, configFor, Except.bind_eq_ok] at hc
  obtain ⟨codes, -, hbuild⟩ := hc
  cases hb : ConfigSet.build s.world.view registry codes h with
  | error e => rw [hb] at hbuild; cases hbuild
  | ok c' =>
    rw [hb] at hbuild
    have hc' : c'.withoutInputs = c.withoutInputs := Except.ok.inj hbuild
    rw [← ConfigSet.host_of_build hb]
    exact (congrArg ConfigSet.host hc').symm

/-- What is made for a configuration is what the project said of it at the start. -/
theorem createCompiler_map (hi : s.Independent) (k : s.Keeps w.disk)
    (hcodes : w.ignoreCodes = s.world.ignoreCodes) {h : HostConfig} (hh : s.hosts h) :
    (t.createCompiler w h).map (fun c => c.config.withoutInputs) = s.configFor t.registry h := by
  rw [createCompiler, configFor, hcodes]
  cases environmentCodes s.world.ignoreCodes with
  | error e => rfl
  | ok codes =>
    have hbuild := hi h t.registry codes w.disk hh k.agrees
    change (ConfigSet.build w.view t.registry codes h).map _ = _ at hbuild
    refine Eq.trans ?_ hbuild
    cases hb : ConfigSet.build w.view t.registry codes h with
    | error e => simp only [bind, Except.bind, hb, Except.map]
    | ok config =>
      simp only [bind, Except.bind, hb, Except.map, config_create]

/-! ## Runs -/

/-- What holds of each transformer between two calls. -/
structure Ready (s : Sharing) (t : Transformer) (w : World) : Prop where
  fine : Fine s.Keeps s.Describes t w
  ignoreCodes : w.ignoreCodes = s.world.ignoreCodes
  serving : Serving s.hosts s.held (s.IsFor t.registry) t

theorem Ready.of_world (ready : s.Ready t w) {w' : World} (hm : w'.IsMiniature)
    (hcodes : w'.ignoreCodes = s.world.ignoreCodes) (k : s.Keeps w'.disk) : s.Ready t w' :=
  ⟨⟨ready.fine.all, hm, k⟩, hcodes, ready.serving⟩

theorem ready_new (registry : CompilerRegistry) (fallback : Option Fallback)
    (hm : w.IsMiniature) (hcodes : w.ignoreCodes = s.world.ignoreCodes) (k : s.Keeps w.disk) :
    s.Ready { registry, fallback } w :=
  ⟨⟨fun c hc => by simp at hc, hm, k⟩, hcodes, serving_new registry fallback⟩

theorem Ready.worked (ready : s.Ready t w) {w' : World} (work : Worked t w t' w')
    (fine : Fine s.Keeps s.Describes t' w') : s.Ready t' w' := by
  refine ⟨fine, work.ignoreCodes.trans ready.ignoreCodes, ?_⟩
  rw [work.registry]
  exact ready.serving.worked work

/-- Whether a compiler has been found that serves a configuration. -/
structure Finds (s : Sharing) (t t' : Transformer) (w : World) (i : Nat) (h : HostConfig) :
    Prop where
  ready : s.Ready t' w
  registry : t'.registry = t.registry
  fallback : t'.fallback = t.fallback
  index : i < t'.compilers.length
  config : s.configFor t.registry h = .ok (t'.compiler i).config.withoutInputs

theorem Finds.onDisk {r : Request} {a : HostArgument} (ha : s.Admits w r a) {h : HostConfig}
    (hconfig : a.config = .ok h) (f : s.Finds t t' w i h) :
    w.disk.read? ((t'.compiler i).config.rootDir.resolve r.path) = some r.source := by
  have hhost : (t'.compiler i).config.host = h := IsFor.host f.config
  rw [ConfigSet.rootDir, hhost]
  exact ha.onDisk h hconfig

/-- A call changes the world for all transformers, but only one of them. -/
theorem ready_set {ts : List Transformer} {w' : World} (ready : s.Ready t' w')
    (hts : ∀ t ∈ ts, s.Ready t w) : ∀ t ∈ ts.set i t', s.Ready t w' := by
  intro t ht
  rcases List.mem_or_eq_of_mem_set ht with ht | rfl
  · exact (hts t ht).of_world ready.fine.miniature ready.ignoreCodes ready.fine.disk
  · exact ready

section Conditions

variable (hr : s.ReadsBack) (hi : s.Independent)
include hr hi

theorem Ready.find (ready : s.Ready t w) {a : HostArgument} (ha : s.Names a)
    (hfound : t.find w a = .ok (i, t')) : ∃ h, a.config = .ok h ∧ s.Finds t t' w i h := by
  have hnew : ∀ h c, s.hosts h → t.createCompiler w h = .ok c → s.IsFor t.registry h c.config := by
    intro h c hh hc
    rw [IsFor, ← createCompiler_map hi ready.fine.disk ready.ignoreCodes hh, hc]
    rfl
  obtain ⟨h, hconfig, hserving, hserves⟩ : ∃ h, a.config = .ok h ∧
      Serving s.hosts s.held (s.IsFor t.registry) t' ∧ Serves (s.IsFor t.registry) t' i h := by
    cases a with
    | live host =>
      obtain ⟨hserving, hserves⟩ := compilerFor_serves hr hnew ready.serving
        (ha.hosts _ rfl) (fun n hn => ha.held host n rfl hn) hfound
      exact ⟨host.config, rfl, hserving, hserves⟩
    | text text => exact compilerForText_serves hr hnew ready.serving ha.hosts hfound
  have hf := found_of_find hfound
  have hall := hf.all ready.fine.all fun host c hhost hc =>
    describes_created ready.fine.disk (ha.hosts host hhost) hc
  exact ⟨h, hconfig,
    { ready := ⟨⟨hall, ready.fine.miniature, ready.fine.disk⟩, ready.ignoreCodes,
        hf.registry ▸ hserving⟩
      registry := hf.registry
      fallback := hf.fallback
      index := hserves.1
      config := hserves.2 }⟩

theorem Ready.process (ready : s.Ready t w) {r : Request} {host : LiveHost}
    (ha : s.Admits w r (.live host)) :
    s.Ready (t.process w r.source r.path host r.options).2.1
      (t.process w r.source r.path host r.options).2.2 := by
  rw [Transformer.process]
  split
  · exact ready
  · rename_i i t' hfound
    obtain ⟨h, hconfig, f⟩ := ready.find hr hi ha.toNames (a := .live host) hfound
    exact f.ready.worked (transform_worked f.ready.fine.miniature r.options)
      (transform_fine (callsKeep s) f.ready.fine r.options (resolve_normal _ _)
        (f.onDisk ha hconfig))

theorem Ready.key (ready : s.Ready t w) {r : Request} {a : HostArgument} (ha : s.Admits w r a) :
    s.Ready (t.key w r a).2.1 (t.key w r a).2.2 := by
  cases hfound : t.find w a with
  | error e =>
    rw [key_eq_of_error r hfound]
    exact ready
  | ok found =>
    obtain ⟨i, t'⟩ := found
    obtain ⟨h, hconfig, f⟩ := ready.find hr hi ha.toNames hfound
    have hready := f.ready.worked (keyOf_worked (i := i) f.ready.fine.miniature r.options)
      (keyOf_fine (callsKeep s) f.ready.fine r.options (resolve_normal _ _)
        (f.onDisk ha hconfig))
    rw [key_eq_of_ok r hfound]
    generalize t'.keyOf w i r.source _ r.options = out at hready ⊢
    exact hready

/-- In every run all transformers know nothing but what describes the project. -/
theorem Run.ready {ts : List Transformer} (run : s.Run ts w) :
    (w.IsMiniature ∧ w.ignoreCodes = s.world.ignoreCodes ∧ s.Keeps w.disk) ∧
      ∀ t ∈ ts, s.Ready t w := by
  induction run with
  | start => exact ⟨⟨s.miniature, rfl, keeps_start⟩, fun t ht => by simp at ht⟩
  | join registry fallback _ ih =>
    obtain ⟨⟨hm, hcodes, k⟩, hts⟩ := ih
    refine ⟨⟨hm, hcodes, k⟩, fun t ht => ?_⟩
    rcases List.mem_append.mp ht with ht | ht
    · exact hts t ht
    · rw [List.mem_singleton.mp ht]
      exact ready_new registry fallback hm hcodes k
  | touch p _ ih =>
    obtain ⟨⟨hm, hcodes, k⟩, hts⟩ := ih
    exact ⟨⟨hm, hcodes, k.touch p⟩, fun t ht => (hts t ht).of_world hm hcodes (k.touch p)⟩
  | process _ hget ha ih =>
    have ready := (ih.2 _ (List.mem_of_getElem? hget)).process hr hi ha
    exact ⟨⟨ready.fine.miniature, ready.ignoreCodes, ready.fine.disk⟩, ready_set ready ih.2⟩
  | key _ hget ha ih =>
    have ready := (ih.2 _ (List.mem_of_getElem? hget)).key hr hi ha
    exact ⟨⟨ready.fine.miniature, ready.ignoreCodes, ready.fine.disk⟩, ready_set ready ih.2⟩

end Conditions

/-! ## Keys -/

/-- What a walk or an entry gives for a file: what every walk through the project gives. -/
theorem resolvedModules_eq (hm : w.IsMiniature) (k : s.Keeps w.disk) {c : LanguageCompiler}
    (hd : s.Describes c) {file : Path} {source : Text} (hf : file.normalize = file)
    (ht : s.MayHold file source) {pic : Picture} {bound : Nat}
    (hpic : Picture.AgreesApart s.graphFile.normalize pic s.world.disk.picture)
    (hfile : pic file = ⟨some source, true⟩) (hbound : Closure.IsBound pic.imports bound) :
    ((c.sessionIn w).resolvedModules source file).1 =
      Closure.ofImports pic.imports bound file := by
  have hcases := LanguageCompiler.Session.resolvedModules_cases (s := c.sessionIn w)
    (hm _) source file
  rw [hf] at hcases
  rcases hcases with ⟨e, hget, hcontent, hmodules⟩ | ⟨-, hmodules⟩
  · rw [hmodules]
    exact (hd.graph.entries file e hf hget).modules pic bound hpic (hcontent ▸ hfile) hbound
  · have h₀ : LanguageCompiler.Session.During s.MayHold (c.sessionIn w) (c.sessionIn w) :=
      ⟨rfl, rfl, rfl, hm _, hd.texts⟩
    have hduring := LanguageCompiler.Session.begin_during h₀ (hf.symm ▸ ht)
    rw [hf] at hduring
    rw [hmodules]
    refine Picture.ofImports_congr s.not_isDotted_graphFile
      ((agreesApart_of_shows k hduring.shows).trans hpic.symm) hf ?_
      (LanguageCompiler.Session.isBound_imports hduring.miniature) hbound
    rw [LanguageCompiler.Session.picture_eq_of_held hf
      (LanguageCompiler.Session.held?_update_self _ _ _), hfile]

/-- The modules that go into a key, if the compiler follows imports. -/
def modulesFor (config : ConfigSet) (d : Disk) (file : Path) : List Path :=
  if config.isolated then [] else d.importClosure file

/-- The key that a request has on a disk, if the configuration is what the project said of
it at the start. -/
def keyFor (s : Sharing) (registry : CompilerRegistry) (fallback : Option Fallback) (d : Disk)
    (r : Request) (a : HostArgument) : Except TransformError Text :=
  match a.config with
  | .error e => .error (.config e)
  | .ok h =>
    match s.configFor registry h with
    | .error e => .error (.config e)
    | .ok config =>
      let file := h.rootDir.resolve r.path
      .ok (Digest.ofParts ((keyParts config fallback r.source file r.options d
        (modulesFor config d file)).map Text.utf8))

section Key

variable {D : Disk} (k : s.Keeps D)
  (htimes : ∀ m, m.normalize ≠ s.graphFile.normalize → w.disk.modified m = D.modified m)
include k htimes

/-- A key is made from the disk as it is. -/
theorem keyOf_eq (fine : Fine s.Keeps s.Describes t w) (hi : i < t.compilers.length)
    {file : Path} (hf : file.normalize = file) {source : Text}
    (hread : D.read? file = some source) (options : TransformOptions) :
    (t.keyOf w i source file options).1 = Digest.ofParts
      ((keyParts (t.compiler i).config t.fallback source file options D
        (modulesFor (t.compiler i).config D file)).map Text.utf8) := by
  have hsatisfies := fine.all _ (compiler_mem hi)
  have ht := k.onDisk hf hread
  cases hc : t.compiler i with
  | isolated config =>
    rw [hc] at hsatisfies
    have hisolated : config.isolated = true := hsatisfies
    rw [keyOf_isolated hc, Compiler.config, modulesFor, if_pos hisolated, keyParts, keyParts,
      moduleParts, moduleParts, List.flatMap_nil, List.flatMap_nil]
  | language c =>
    rw [hc] at hsatisfies
    have hd : s.Describes c := hsatisfies
    have hpicture : D.picture file = ⟨some source, true⟩ := by
      rw [Disk.picture, hread, Disk.hasFile_of_read? hread]
    have hmodules := resolvedModules_eq fine.miniature fine.disk hd hf ht k.agrees.picture hpicture
      D.isBound_imports
    have hafter : LanguageCompiler.Session.After s.MayHold s.IsEntry (c.sessionIn w)
        ((c.sessionIn w).resolvedModules source file).2 :=
      LanguageCompiler.Session.resolvedModules_after
        (kept (x := c.sessionIn w) fine.disk (fine.miniature _) hd.texts
          (Path.normalize_normalize file) (hf.symm ▸ ht))
        (fine.miniature _) hd.texts hd.graph.entries
    -- At most the graph's file has a new time, and it is none of the modules.
    have htime : ∀ m, m.normalize ≠ s.graphFile.normalize →
        ((c.sessionIn w).resolvedModules source file).2.world.disk.modified m = D.modified m := by
      intro m hm
      rw [← htimes m hm]
      rcases hafter.disk with h | ⟨g, hg, hwrite⟩
      · rw [h]
        rfl
      · rw [show (c.sessionIn w).compiler.graph.file = some s.graphFile from hd.file] at hg
        obtain rfl := Option.some.inj hg
        exact Disk.modified_write hwrite hm
    have hparts : moduleParts ((c.sessionIn w).resolvedModules source file).2.world.disk
        (D.importClosure file) = moduleParts D (D.importClosure file) := by
      refine moduleParts_congr fun m hm => htime m ?_
      intro hm'
      have hnormal : m.normalize = m := by
        have hclosure := Closure.ofImports_isClosure hf D.isBound_imports
        exact (((hclosure.mem_iff m).mp hm).1).normal hf
      rw [hnormal] at hm'
      exact Picture.not_mem_ofImports s.not_isDotted_graphFile hf D.isBound_imports (hm' ▸ hm)
    rw [keyOf_language hc, hmodules, Compiler.config, modulesFor, hd.full, keyParts, keyParts]
    rw [Disk.importClosure] at hparts
    simp only [Bool.false_eq_true, if_false, Disk.importClosure, hparts]

variable (hr : s.ReadsBack) (hi : s.Independent)
include hr hi

/-- What a transformer gives is settled by the disk and the host alone. -/
theorem key_eq (ready : s.Ready t w) {r : Request} {a : HostArgument} (ha : s.Names a)
    (hread : ∀ h, a.config = .ok h → D.read? (h.rootDir.resolve r.path) = some r.source) :
    (t.key w r a).1 = s.keyFor t.registry t.fallback D r a := by
  cases hfound : t.find w a with
  | error e =>
    rw [key_eq_of_error r hfound, keyFor]
    rcases find_error hfound with hconfig | ⟨h, hconfig, hcreate⟩
    · rw [hconfig]
    · rw [hconfig]
      dsimp only
      rw [← createCompiler_map hi ready.fine.disk ready.ignoreCodes (ha.hosts h hconfig), hcreate]
      rfl
  | ok found =>
    obtain ⟨i, t'⟩ := found
    obtain ⟨h, hconfig, f⟩ := ready.find hr hi ha hfound
    have hhost : (t'.compiler i).config.host = h := IsFor.host f.config
    have hroot : (t'.compiler i).config.rootDir = h.rootDir := by rw [ConfigSet.rootDir, hhost]
    have hkey := keyOf_eq k htimes f.ready.fine f.index (resolve_normal h.rootDir r.path)
      (hread h hconfig) r.options
    rw [key_eq_of_ok r hfound, keyFor, hconfig]
    dsimp only
    rw [f.config, hroot, hkey, f.fallback]
    rfl

end Key

/-- In every run each key, whether the host is given as it is held or as a text, is the one
that a new transformer would give if there were no graphs: it is made of what the file
reaches in the project and of the times there are now. -/
theorem key_eq_new (hr : s.ReadsBack) (hi : s.Independent) {ts : List Transformer}
    (run : s.Run ts w) (ht : t ∈ ts) {r : Request} {a : HostArgument} (ha : s.Admits w r a) :
    (t.key w r a).1 =
        (Transformer.key { registry := t.registry, fallback := t.fallback } (s.clear w) r a).1 ∧
      ∀ key, (t.key w r a).1 = .ok key → ∃ h codes config,
        a.config = .ok h ∧ environmentCodes w.ignoreCodes = .ok codes ∧
        ConfigSet.build (s.clear w).view t.registry codes h = .ok config ∧
        key = Digest.ofParts ((keyParts config t.fallback r.source (h.rootDir.resolve r.path)
          r.options w.disk (modulesFor config w.disk (h.rootDir.resolve r.path))).map
            Text.utf8) := by
  obtain ⟨⟨hm, hcodes, k⟩, hts⟩ := run.ready hr hi
  have hkey := key_eq k (fun _ _ => rfl) hr hi (hts t ht) ha.toNames ha.onDisk
  have hnew := key_eq k (fun m hm => Disk.modified_without _ hm) hr hi
    (ready_new (w := s.clear w) t.registry t.fallback hm hcodes k.clear) ha.toNames ha.onDisk
  refine ⟨hkey.trans hnew.symm, fun key h => ?_⟩
  rw [hkey, keyFor] at h
  split at h
  · cases h
  · rename_i host hconfig
    split at h
    · cases h
    · rename_i config hfor
      have hmap := createCompiler_map (t := t) (w := s.clear w) hi k.clear hcodes
        (ha.hosts host hconfig)
      rw [hfor] at hmap
      cases hc : t.createCompiler (s.clear w) host with
      | error e => rw [hc] at hmap; cases hmap
      | ok c =>
        obtain ⟨codes, config', henvironment, hbuild, hcreate⟩ := createCompiler_eq_ok hc
        rw [hc, hcreate] at hmap
        have hsame : config'.withoutInputs = config := by
          rw [← config_create (s.clear w).view config']
          exact Except.ok.inj hmap
        refine ⟨host, codes, config', hconfig, henvironment, hbuild, ?_⟩
        rw [← Except.ok.inj h, ← hsame]
        rfl

/-! ## A project with a test -/

namespace Sample

/-- A host that keeps graphs in `.cache` and has one option of its own. -/
def host (tsconfig : Json) : HostConfig where
  rootDir := Path.ofString "/project"
  cacheDirectory := some (Path.ofString ".cache")
  globals := [(HostConfig.optionsKey, .obj [("tsconfig", tsconfig)])]

def live (tsconfig : Json) : HostArgument := .live { config := host tsconfig }

def module : Request where
  source := "export const value = 1;\n"
  path := Path.ofString "b.ts"

def test : Request where
  source := "import \x7b value \x7d from \"./b\";\n"
  path := Path.ofString "a.test.ts"

/-- A module, and a test that imports it. -/
def world : World where
  disk.store := (({} : Store).add (Path.ofString "/project/a.test.ts") test.source).add
    (Path.ofString "/project/b.ts") module.source
  engines := [.miniature { version := Miniature.Engine.defaultVersion }]

def registry : CompilerRegistry :=
  ({} : CompilerRegistry).register CompilerRegistry.defaultName ⟨0, Miniature.Engine.defaultVersion⟩

/-- A transformer that has not been used. -/
def new : Transformer := { registry }

theorem isMiniature_world : world.IsMiniature := by
  intro id
  cases id <;> trivial

/-- The hosts with some of the options share the project. -/
def sharing (tsconfigs : List Json) : Sharing where
  world
  directory := Path.ofString "/project/.cache"
  hosts h := ∃ tsconfig ∈ tsconfigs, h = host tsconfig
  held _ := default
  miniature := isMiniature_world
  unrecorded := by decide +kernel
  shared := by
    rintro h ⟨tsconfig, -, rfl⟩
    change ((host .null).cacheDirectory.map fun dir => (host .null).resolvePath dir.text) = _
    decide +kernel

theorem admits {tsconfigs : List Json} {w : World} {r : Request} {a : HostArgument} {tsconfig : Json}
    (hmem : tsconfig ∈ tsconfigs) (hconfig : a.config = .ok (host tsconfig))
    (hid : ∀ host, a = .live host → host.id = none)
    (hdisk : w.disk.read? ((Path.ofString "/project").resolve r.path) = some r.source) :
    (sharing tsconfigs).Admits w r a where
  hosts h hh := by
    rw [hconfig] at hh
    exact ⟨tsconfig, hmem, (Except.ok.inj hh).symm⟩
  held host n ha hn := by
    rw [hid host ha] at hn
    cases hn
  onDisk h hh := by
    rw [hconfig] at hh
    cases hh
    exact hdisk

theorem readsBack {tsconfigs : List Json}
    (h : ∀ j ∈ tsconfigs, HostConfig.ofText (host j).canonical = .ok (host j)) :
    (sharing tsconfigs).ReadsBack := by
  rintro _ ⟨j, hj, rfl⟩
  exact h j hj

/-- There is no configuration file in the project, so nothing is read unless one is named. -/
theorem independent {tsconfigs : List Json}
    (h : ∀ j ∈ tsconfigs, ∃ o, (host j).options = .ok o ∧ ∀ t, o.tsconfig ≠ some (.file t)) :
    (sharing tsconfigs).Independent := by
  rintro _ registry codes d ⟨j, hj, rfl⟩ hd
  obtain ⟨o, ho, hfile⟩ := h j hj
  have hlocate : ∀ d : Disk, d.AgreesApart (sharing tsconfigs).graphFile.normalize world.disk →
      ResolvedTsConfig.locate d.view (host j) o.tsconfig = .ok none := by
    intro d hd
    refine ResolvedTsConfig.locate_eq_none ?_ hfile
    rw [TsConfig.find?, List.find?_eq_none]
    intro p hp
    have hp' : p.normalize ≠ (sharing []).graphFile.normalize ∧ world.disk.hasFile p = false := by
      revert p
      change ∀ p ∈ (Path.ofString "/project").ancestors.map fun dir => dir.join ⟨TsConfig.fileName⟩, _
      decide +kernel
    change ¬ d.hasFile p = true
    rw [hd.hasFile_eq hp'.1, hp'.2]
    exact Bool.false_ne_true
  rw [ConfigSet.build_congr ho (hlocate d hd) (hlocate world.disk (.refl _ _))]
  rfl

/-- The world after a key for the test. -/
def recorded (tsconfig : Json) : World := (new.key world test (live tsconfig)).2.2

/-- The module has been touched after that. -/
def touched (tsconfig : Json) : World :=
  { recorded tsconfig with disk := (recorded tsconfig).disk.touch (Path.ofString "/project/b.ts") }

/-- A transformer has recorded the test, and another one has joined. -/
theorem run_recorded {tsconfigs : List Json} {tsconfig : Json} (hmem : tsconfig ∈ tsconfigs) :
    (sharing tsconfigs).Run [(new.key world test (live tsconfig)).2.1, new] (recorded tsconfig) := by
  have hjoined : (sharing tsconfigs).Run [new, new] world :=
    .join registry none (.join registry none .start)
  have hadmits : (sharing tsconfigs).Admits world test (live tsconfig) :=
    admits hmem rfl (fun host h => by cases h; rfl) (by decide)
  exact .key (i := 0) hjoined rfl hadmits

/-- The option that there is no configuration file. -/
def noFile : Json := .bool false

theorem independent_noFile : (sharing [noFile]).Independent := by
  refine independent fun j hj => ?_
  obtain rfl := List.mem_singleton.mp hj
  exact ⟨{ tsconfig := some (.toggle false) }, by decide, by simp⟩

end Sample

/-- The transformer that joins finds the list that the other one has recorded for the test, and gives
the same key as without it, also when the module has been touched since. -/
theorem key_eq_new_recorded :
    let s := Sample.sharing [Sample.noFile]
    let w := Sample.touched Sample.noFile
    (GraphCache.openAt w.view (some s.directory)).lookup? (Path.ofString "/project/a.test.ts") =
        some [Path.ofString "/project/b.ts"] ∧
      (Sample.new.key w Sample.test (Sample.live Sample.noFile)).1 =
        (Sample.new.key (s.clear w) Sample.test (Sample.live Sample.noFile)).1 := by
  obtain ⟨hread, hdisk, hrecorded⟩ :
      (∀ j ∈ [Sample.noFile], HostConfig.ofText (Sample.host j).canonical = .ok (Sample.host j)) ∧
      (Sample.touched Sample.noFile).disk.read?
        ((Path.ofString "/project").resolve Sample.test.path) = some Sample.test.source ∧
      (GraphCache.openAt (Sample.touched Sample.noFile).view
        (some (Sample.sharing [Sample.noFile]).directory)).lookup?
          (Path.ofString "/project/a.test.ts") = some [Path.ofString "/project/b.ts"] := by
    decide +kernel
  have hrun := (Sample.run_recorded (List.mem_singleton_self Sample.noFile)).touch
    (Path.ofString "/project/b.ts")
  have hnew := key_eq_new (Sample.readsBack hread) Sample.independent_noFile hrun
    (List.mem_cons_of_mem _ List.mem_cons_self) (r := Sample.test) (a := Sample.live Sample.noFile)
    (Sample.admits (List.mem_singleton_self _) rfl (fun host h => by cases h; rfl) hdisk)
  exact ⟨hrecorded, hnew.1⟩

namespace Sample

/-- The option that the graph is the configuration file. -/
def graph : Json := .str (".cache/" ++ GraphCache.fileName)

/-- Options with a number near `1.1e24`. -/
def number (significand : Nat) : Json := .obj [("x", .num (.float ⟨false, significand, 27⟩))]

/-- A number that is written as `1.0999999999999999e+24`, and what that is read as. -/
def written : Json := number 8195638656616210

def reread : Json := number 8195638656616211

theorem options_number (n : Nat) : (host (number n)).options =
    .ok { tsconfig := some (.inline [("x", .num (.float ⟨false, n, 27⟩))]) } := rfl

theorem independent_written : (sharing [written, reread]).Independent := by
  refine independent fun j hj => ?_
  obtain ⟨n, rfl⟩ : ∃ n, j = number n := by
    rcases List.mem_cons.mp hj with rfl | hj
    · exact ⟨_, rfl⟩
    · exact ⟨_, List.mem_singleton.mp hj⟩
  exact ⟨_, options_number n, by simp⟩

end Sample

/-- Both conditions are needed.  A graph that serves as a configuration file is missed by a
transformer that has none, and a text can stand for another configuration than the one it
was written for. -/
theorem keys_not_always_new :
    (¬ ∀ (s : Sharing) ts w t r a, s.ReadsBack → s.Run ts w → t ∈ ts → s.Admits w r a →
      (t.key w r a).1 =
        (Transformer.key { registry := t.registry, fallback := t.fallback } (s.clear w) r a).1) ∧
    (¬ ∀ (s : Sharing) ts w t r a, s.Independent → s.Run ts w → t ∈ ts → s.Admits w r a →
      (t.key w r a).1 =
        (Transformer.key { registry := t.registry, fallback := t.fallback } (s.clear w) r a).1) := by
  constructor
  · intro h
    obtain ⟨hread, hdisk, hok, hnot⟩ :
        (∀ j ∈ [Sample.noFile, Sample.graph],
          HostConfig.ofText (Sample.host j).canonical = .ok (Sample.host j)) ∧
        (Sample.recorded Sample.noFile).disk.read?
          ((Path.ofString "/project").resolve Sample.module.path) = some Sample.module.source ∧
        (Sample.new.key (Sample.recorded Sample.noFile) Sample.module
          (Sample.live Sample.graph)).1.isOk = true ∧
        (Sample.new.key ((Sample.sharing [Sample.noFile, Sample.graph]).clear
          (Sample.recorded Sample.noFile)) Sample.module (Sample.live Sample.graph)).1.isOk =
            false := by
      decide +kernel
    have hadmits : (Sample.sharing [Sample.noFile, Sample.graph]).Admits
        (Sample.recorded Sample.noFile) Sample.module (Sample.live Sample.graph) :=
      Sample.admits (List.mem_cons_of_mem _ List.mem_cons_self) rfl (fun host h => by cases h; rfl)
        hdisk
    have hkey : (Sample.new.key (Sample.recorded Sample.noFile) Sample.module
          (Sample.live Sample.graph)).1 =
        (Sample.new.key ((Sample.sharing [Sample.noFile, Sample.graph]).clear
          (Sample.recorded Sample.noFile)) Sample.module (Sample.live Sample.graph)).1 :=
      h (Sample.sharing [Sample.noFile, Sample.graph]) _ (Sample.recorded Sample.noFile)
        Sample.new Sample.module (Sample.live Sample.graph) (Sample.readsBack hread)
        (Sample.run_recorded List.mem_cons_self) (List.mem_cons_of_mem _ List.mem_cons_self)
        hadmits
    rw [hkey, hnot] at hok
    cases hok
  · intro h
    -- The first call with the host as it is held settles what its text stands for.
    obtain ⟨hread, hdisk, hused⟩ :
        HostConfig.ofText (Sample.host Sample.written).canonical = .ok (Sample.host Sample.reread) ∧
        (Sample.recorded Sample.written).disk.read?
          ((Path.ofString "/project").resolve Sample.test.path) = some Sample.test.source ∧
        (((Sample.new.key Sample.world Sample.test (Sample.live Sample.written)).2.1.key
          (Sample.recorded Sample.written) Sample.test
          (.text (Sample.host Sample.written).canonical)).1.toOption.bind List.head?) =
            some '0' := by
      decide +kernel
    have hnew :
        let t := (Sample.new.key Sample.world Sample.test (Sample.live Sample.written)).2.1
        ((Transformer.key { registry := t.registry, fallback := t.fallback }
          ((Sample.sharing [Sample.written, Sample.reread]).clear
            (Sample.recorded Sample.written)) Sample.test
          (.text (Sample.host Sample.written).canonical)).1.toOption.bind List.head?) =
            some 'a' := by
      decide +kernel
    have hadmits : (Sample.sharing [Sample.written, Sample.reread]).Admits
        (Sample.recorded Sample.written) Sample.test
        (.text (Sample.host Sample.written).canonical) :=
      Sample.admits (List.mem_cons_of_mem _ List.mem_cons_self) hread (fun host h => by cases h)
        hdisk
    have hkey := h (Sample.sharing [Sample.written, Sample.reread]) _
      (Sample.recorded Sample.written)
      (Sample.new.key Sample.world Sample.test (Sample.live Sample.written)).2.1 Sample.test
      (.text (Sample.host Sample.written).canonical) Sample.independent_written
      (Sample.run_recorded List.mem_cons_self) List.mem_cons_self hadmits
    rw [hkey] at hused
    have hdigits := hused.symm.trans hnew
    exact absurd hdigits (by decide)

end Sharing
end TestTransform

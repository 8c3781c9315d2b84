/-
Transformers that share a project and a directory for their graphs.

Each transformer keeps a graph of its own, and each write puts it in place of what the
others wrote.  What is lost that way is worked out again, and what is not lost says the same
as a new walk would: every entry and every text that is held describes the project, which
does not change.
-/
import TestTransform.Proofs.Compiler.Apart
import TestTransform.Proofs.Config.Build
import TestTransform.Proofs.Graph.Text
import TestTransform.Proofs.Transform.Serving

namespace TestTransform

/-! ## Requests -/

/-- What a call is about, besides the host. -/
structure Request where
  source : Text
  path : Path
  options : TransformOptions := {}
  deriving DecidableEq, Repr, Inhabited

/-- How a call names a host's configuration: as the host holds it, or as a text. -/
inductive HostArgument where
  | live (host : LiveHost)
  | text (t : Text)
  deriving DecidableEq, Repr, Inhabited

namespace HostArgument

def config : HostArgument → Except ConfigError HostConfig
  | live host => .ok host.config
  | text t => HostConfig.ofText t

end HostArgument

namespace Transformer

/-- The compiler for a host. -/
def find (t : Transformer) (w : World) : HostArgument → Except ConfigError (Nat × Transformer)
  | .live host => t.compilerFor w host
  | .text text => t.compilerForText w text

/-- The key for a request. -/
def key (t : Transformer) (w : World) (r : Request) :
    HostArgument → Except TransformError Text × Transformer × World
  | .live host => t.cacheKeyFor w r.source r.path host r.options
  | .text text => t.cacheKey w r.source r.path text r.options

end Transformer

namespace ConfigSet

/-- A configuration set without the list of input files, which is not part of any key. -/
def withoutInputs (c : ConfigSet) : ConfigSet := { c with fileNames := [] }

end ConfigSet

/-! ## Sharing -/

/-- What transformers share: a project on miniature compilers as it is before any of them is
at work, and a directory for their graphs, which all hosts name and in which there is no
graph yet. -/
structure Sharing where
  world : World
  directory : Path
  /-- The configurations that hosts use. -/
  hosts : HostConfig → Prop
  /-- The configuration that is held under a number. -/
  held : Nat → HostConfig
  miniature : world.IsMiniature
  unrecorded : world.disk.hasFile (directory.join ⟨GraphCache.fileName⟩) = false
  shared : ∀ h, hosts h →
    (h.cacheDirectory.map fun dir => h.resolvePath dir.text) = some directory

namespace Sharing

/-- The file in which the graphs are kept. -/
def graphFile (s : Sharing) : Path := s.directory.join ⟨GraphCache.fileName⟩

/-- Whether the host of a call is one of those that share. -/
structure Names (s : Sharing) (a : HostArgument) : Prop where
  hosts : ∀ h, a.config = .ok h → s.hosts h
  held : ∀ host n, a = .live host → host.id = some n → host.config = s.held n

/-- Whether a call may be made: its host is one of those that share, and its source is on
disk. -/
structure Admits (s : Sharing) (w : World) (r : Request) (a : HostArgument) : Prop
    extends Names s a where
  onDisk : ∀ h, a.config = .ok h → w.disk.read? (h.rootDir.resolve r.path) = some r.source

/-- The runs of transformers that share a project.  They join one by one, their calls come
in any order, and files are touched in between. -/
inductive Run (s : Sharing) : List Transformer → World → Prop where
  | start : Run s [] s.world
  | join (registry : CompilerRegistry) (fallback : Option Fallback) {ts : List Transformer}
      {w : World} : Run s ts w → Run s (ts ++ [({ registry, fallback } : Transformer)]) w
  | touch (p : Path) {ts : List Transformer} {w : World} :
      Run s ts w → Run s ts { w with disk := w.disk.touch p }
  | process {ts : List Transformer} {w : World} {i : Nat} {t : Transformer} {r : Request}
      {host : LiveHost} : Run s ts w → ts[i]? = some t → s.Admits w r (.live host) →
      Run s (ts.set i (t.process w r.source r.path host r.options).2.1)
        (t.process w r.source r.path host r.options).2.2
  | key {ts : List Transformer} {w : World} {i : Nat} {t : Transformer} {r : Request}
      {a : HostArgument} : Run s ts w → ts[i]? = some t → s.Admits w r a →
      Run s (ts.set i (t.key w r a).2.1) (t.key w r a).2.2

/-- The world without the graphs that were kept. -/
def clear (s : Sharing) (w : World) : World := { w with disk := w.disk.without s.graphFile }

/-- Whether each configuration is what is read from the text that stands for it. -/
def ReadsBack (s : Sharing) : Prop := ∀ h, s.hosts h → HostConfig.ofText h.canonical = .ok h

/-- Whether the configurations say the same whatever is in the file for the graphs, but for
the list of input files. -/
def Independent (s : Sharing) : Prop :=
  ∀ h registry codes (d : Disk), s.hosts h →
    d.AgreesApart s.graphFile.normalize s.world.disk →
    (ConfigSet.build d.view registry codes h).map ConfigSet.withoutInputs =
      (ConfigSet.build s.world.view registry codes h).map ConfigSet.withoutInputs

/-! ## What describes the project -/

/-- Whether a text may be held for a file: it is that on disk, unless the file is that for
the graphs. -/
def MayHold (s : Sharing) (p : Path) (t : Text) : Prop :=
  p ≠ s.graphFile.normalize → s.world.disk.read? p = some t

/-- Whether an entry says what every walk from its content finds. -/
structure IsEntry (s : Sharing) (p : Path) (e : GraphEntry) : Prop where
  content : s.MayHold p e.content
  modules : ∀ pic bound, Picture.AgreesApart s.graphFile.normalize pic s.world.disk.picture →
    pic p = ⟨some e.content, true⟩ → Closure.IsBound pic.imports bound →
      e.modules = Closure.ofImports pic.imports bound p

/-- Whether a graph has only such entries, in the order of their paths. -/
structure IsGraph (s : Sharing) (g : DependencyGraph) : Prop where
  rising : g.Rising
  entries : ∀ p e, p.normalize = p → g.get? p = some e → s.IsEntry p e

/-- Whether a disk is that of the project, with such a graph or none. -/
structure Keeps (s : Sharing) (d : Disk) : Prop where
  agrees : d.AgreesApart s.graphFile.normalize s.world.disk
  graph : ∀ t, d.read? s.graphFile = some t → ∃ g, t = g.toText ∧ s.IsGraph g

/-- Whether all that a compiler knows describes the project. -/
structure Describes (s : Sharing) (c : LanguageCompiler) : Prop where
  full : c.config.isolated = false
  file : c.graph.file = some s.graphFile
  texts : ∀ p t, p.normalize = p → c.host.files.text? p = some t → s.MayHold p t
  graph : s.IsGraph c.graph.graph

theorem not_isDotted_graphFile (s : Sharing) : ¬ s.graphFile.normalize.IsDotted :=
  GraphCache.not_isDotted_join s.directory

variable {s : Sharing} {d : Disk}

theorem isGraph_empty : s.IsGraph {} :=
  ⟨DependencyGraph.rising_empty, fun p e _ h => by simp [DependencyGraph.get?, Assoc.find?] at h⟩

theorem keeps_start : s.Keeps s.world.disk :=
  ⟨.refl _ _, fun t ht => by
    rw [graphFile, Disk.read?_of_not_hasFile s.unrecorded] at ht; cases ht⟩

theorem Keeps.touch (k : s.Keeps d) (p : Path) : s.Keeps (d.touch p) :=
  ⟨(Disk.AgreesApart.touch d p).trans k.agrees, fun t ht => k.graph t (by
    rwa [Disk.read?_touch] at ht)⟩

theorem Keeps.clear (k : s.Keeps d) : s.Keeps (d.without s.graphFile) :=
  ⟨(Disk.AgreesApart.without d _).trans k.agrees, fun t ht => by
    rw [Disk.read?_without] at ht; cases ht⟩

/-- The graph of a compiler is written to the file. -/
theorem Keeps.write (k : s.Keeps d) {g : DependencyGraph} (hg : s.IsGraph g) {d' : Disk}
    (h : d.write s.graphFile g.toText = .ok d') : s.Keeps d' := by
  refine ⟨(Disk.AgreesApart.write h).trans k.agrees, fun t ht => ?_⟩
  rcases Disk.read_write h rfl with hread | hread
  · rw [hread] at ht
    cases ht
    exact ⟨g, rfl, hg⟩
  · rw [hread] at ht
    cases ht

theorem Keeps.onDisk (k : s.Keeps d) {p : Path} {t : Text} (hp : p.normalize = p)
    (ht : d.read? p = some t) : s.MayHold p t := by
  intro hne
  rwa [Disk.read?, ← k.agrees.read_eq (by rwa [hp])]

/-- What is shown is the project. -/
theorem agreesApart_of_shows (k : s.Keeps d) {pic : Picture}
    (h : LanguageCompiler.Session.Shows s.MayHold d pic) :
    Picture.AgreesApart s.graphFile.normalize pic s.world.disk.picture := by
  intro p hp hne
  rcases h p hp with hpic | ⟨t, ht, hpic⟩
  · rw [hpic, k.agrees.picture p hp hne]
  · have hread := ht hne
    rw [hpic, Disk.picture, hread, Disk.hasFile_of_read? hread]

theorem kept {x : LanguageCompiler.Session} (k : s.Keeps x.world.disk)
    (hm : x.world.engine.IsMiniature)
    (ht : ∀ p t, p.normalize = p → x.held? p = some t → s.MayHold p t) {file : Path}
    (hf : file.normalize = file) {content : Text} (hmay : s.MayHold file content) :
    LanguageCompiler.Session.Kept s.MayHold s.IsEntry x file content :=
  { onDisk := fun _ _ hp ht => k.onDisk hp ht
    recorded := fun _ _ _ he => he.content
    passed := hmay
    found := by
      intro bound hbound
      have hbegin : LanguageCompiler.Session.During s.MayHold x (x.update file.normalize content) :=
        LanguageCompiler.Session.begin_during ⟨rfl, rfl, rfl, hm, ht⟩ (by rwa [hf])
      rw [hf] at hbegin
      have hpic : (x.update file content).picture file = ⟨some content, true⟩ :=
        LanguageCompiler.Session.picture_eq_of_held hf
          (LanguageCompiler.Session.held?_update_self _ _ _)
      refine ⟨hmay, fun pic' bound' hpic' hfile hbound' => ?_⟩
      refine Picture.ofImports_congr s.not_isDotted_graphFile
        ((agreesApart_of_shows k hbegin.shows).trans hpic'.symm) hf ?_ hbound hbound'
      rw [hpic, hfile] }

/-! ## What calls keep -/

section Calls

open LanguageCompiler

theorem describes_of_after {x₀ x : Session} (ha : Session.After s.MayHold s.IsEntry x₀ x)
    (hd : s.Describes x₀.compiler) : s.Describes x.compiler := by
  have hconfig : x.compiler.config = x₀.compiler.config := ha.config
  refine ⟨by rw [hconfig, hd.full], by rw [ha.file, hd.file], ha.texts, ?_, ha.entries⟩
  rcases ha.graph with h | ⟨p, e, h⟩
  · rw [h]
    exact hd.graph.rising
  · rw [h]
    exact hd.graph.rising.insert p e

theorem keeps_of_after {x₀ x : Session} (ha : Session.After s.MayHold s.IsEntry x₀ x)
    (hd : s.Describes x₀.compiler) (k : s.Keeps x₀.world.disk) : s.Keeps x.world.disk := by
  rcases ha.disk with h | ⟨file, hfile, hwrite⟩
  · rwa [h]
  · rw [hd.file] at hfile
    obtain rfl := Option.some.inj hfile
    exact k.write (describes_of_after ha hd).graph hwrite

theorem callsKeep (s : Sharing) :
    CallsKeep (fun d p t => d.read? p = some t) s.Keeps s.Describes :=
  { compile := by
      intro x content file options k hd hm hf hread
      have hk := kept k hm hd.texts (Path.normalize_normalize file)
        (k.onDisk (Path.normalize_normalize file) (by rwa [hf]))
      have ha := Session.compile_after hk hm hd.texts hd.graph.entries options
      exact ⟨describes_of_after ha hd, keeps_of_after ha hd k, ha.miniature⟩
    resolvedModules := by
      intro x content file k hd hm hf hread
      have hk := kept k hm hd.texts (Path.normalize_normalize file)
        (k.onDisk (Path.normalize_normalize file) (by rwa [hf]))
      have ha := Session.resolvedModules_after hk hm hd.texts hd.graph.entries
      exact ⟨describes_of_after ha hd, keeps_of_after ha hd k, ha.miniature⟩ }

/-- What is loaded from the file describes the project. -/
theorem isGraph_load (k : s.Keeps d) {c : GraphCache} (hfile : c.file = some s.graphFile)
    (hc : s.IsGraph c.graph) : s.IsGraph (c.load d.view).graph := by
  rw [GraphCache.load, hfile]
  dsimp only
  split
  · change s.IsGraph (((d.read? s.graphFile).bind DependencyGraph.ofText?).getD {})
    cases hread : d.read? s.graphFile with
    | none => exact isGraph_empty
    | some t =>
      obtain ⟨g, rfl, hg⟩ := k.graph t hread
      rw [Option.bind_some, DependencyGraph.ofText?_toText hg.rising]
      exact hg
  · exact hc

theorem file_load (c : GraphCache) (view : FileView) : (c.load view).file = c.file := by
  rw [GraphCache.load]
  split
  · rfl
  · split <;> rfl

theorem describes_created {w : World} (k : s.Keeps w.disk) {t : Transformer} {h : HostConfig}
    (hh : s.hosts h) {c : LanguageCompiler} (hc : t.createCompiler w h = .ok (.language c)) :
    s.Describes c := by
  obtain ⟨codes, config, -, hbuild, hcreate⟩ := Transformer.createCompiler_eq_ok hc
  have hdirectory := ConfigSet.cacheDirectory_of_build hbuild
  rw [s.shared h hh] at hdirectory
  rw [Compiler.create] at hcreate
  split at hcreate
  · cases hcreate
  · rename_i hfull
    cases hcreate
    have hfile : (GraphCache.new config.cacheDirectory).file = some s.graphFile := by
      rw [GraphCache.new, hdirectory, Option.map_some, graphFile]
    refine ⟨Bool.not_eq_true _ ▸ hfull, (file_load _ _).trans hfile, ?_,
      isGraph_load k hfile isGraph_empty⟩
    intro p t hp ht
    simp [LanguageCompiler.create, FileTable.text?, FileTable.get?, Assoc.find?] at ht

end Calls

end Sharing
end TestTransform

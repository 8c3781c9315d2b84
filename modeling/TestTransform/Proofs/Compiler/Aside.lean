/-
A request on the side.

A compiler that is asked for the modules of a file takes files in, and may record the list.
Building another file afterwards comes to the same verdict if what was taken in does not matter
for it: no declaration file has become part of the program, and no recorded importer that was
held back has been loaded.  Otherwise it depends on the checks that are made before and after.
An output that is at hand before need not be at hand afterwards; then the file is built again,
and if that succeeds it gives the same output.
-/
import TestTransform.Proofs.Compiler.Checks
import TestTransform.Proofs.Compiler.Reuse
import TestTransform.Proofs.Except

namespace TestTransform

namespace DependencyGraph

/-- A new entry makes no difference to what the other files import. -/
theorem dependentsOf_insert (g : DependencyGraph) (p : Path) (e : GraphEntry) (module : Path) :
    ((g.insert p e).2.dependentsOf module).filter (fun f => !p.same f) =
      (g.dependentsOf module).filter fun f => !p.same f := by
  have herase : ∀ entries : List (Path × GraphEntry),
      (((entries.filter fun e => e.2.modules.any module.same).map (·.1)).filter
        fun f => !p.same f) =
        ((Assoc.erase Path.cmp p entries).filter fun e => e.2.modules.any module.same).map
          (·.1) := by
    intro entries
    rw [List.filter_map, List.filter_filter, Assoc.erase, List.filter_filter]
    have hkey : ∀ f : Path, (!p.same f) = (Path.cmp p f != .eq) := by
      intro f
      rw [Bool.eq_iff_iff, Bool.not_eq_true', bne_iff_ne, ne_eq, Path.cmp_eq_iff_same,
        Bool.not_eq_true]
    have hfilter : ∀ e : Path × GraphEntry,
        ((fun f => !p.same f) ∘ Prod.fst) e = (Path.cmp p e.1 != .eq) := fun e => hkey e.1
    refine congrArg (List.map Prod.fst) (List.filter_congr fun e _ => ?_)
    rw [hfilter, Bool.and_comm]
  rw [dependentsOf, dependentsOf, herase, herase, insert]
  split
  · rfl
  · rw [Assoc.erase_insert]

end DependencyGraph

namespace Memo

/-- What is asked about one key makes no difference to the others. -/
theorem ask_of_ne {κ υ : Type} {cmp : κ → κ → Ordering} [Std.TransCmp cmp] (compute : κ → υ)
    (m : Memo κ υ) {k k' : κ} (h : cmp k' k ≠ .eq) :
    ((m.ask cmp compute k).2.ask cmp compute k').1 = (m.ask cmp compute k').1 := by
  cases hk : Assoc.find? cmp k m.entries with
  | some v => simp [ask, hk]
  | none =>
    simp only [ask, hk, Assoc.find?_insert_of_ne h]
    split <;> rfl

end Memo

namespace LanguageCompiler
namespace Session

open CompileError (verdict)
open Miniature (SameValues)
open Miniature.Engine (searchLimit)

variable {c : ConfigSet} {U : Path → Prop} {q file : Path} {content : Text}
  {options : TransformOptions} {s s' t : Session}

/-! ## What is held back when a compilation begins -/

/-- Of the importers that were not loaded, showing the file takes away only itself. -/
theorem unloadedDependents_shown (s : Session) (content : Text) (file : Path)
    (options : TransformOptions) (module : Path) :
    (s.shown content file options).unloadedDependents module =
      (s.unloadedDependents module).filter fun f => !f.same file.normalize := by
  have hcontains : ∀ f, (s.shown content file options).compiler.host.files.contains f =
      (f.same file.normalize || s.compiler.host.files.contains f) := by
    intro f
    have hset : (s.setOptions options).compiler.host.files = s.compiler.host.files := by
      rw [Session.setOptions, setHost, ServiceHost.setOptions]
      split <;> rfl
    show ((s.setOptions options).compiler.host.updateFile _ _).2.files.contains f = _
    rw [ServiceHost.contains_updateFile, hset]
  rw [unloadedDependents, unloadedDependents, List.filter_filter]
  refine List.filter_congr fun f _ => ?_
  rw [hcontains, Bool.not_or]

/-! ## Beside a file -/

/-- What is left behind by calls that are about no other file than `q`. -/
structure Beside (U : Path → Prop) (q : Path) (s s' : Session) : Prop extends Leaves U s s' where
  test : ∀ p : Path, p.same q = false → (s'.isTest p).1 = (s.isTest p).1
  recorded : ∀ f, s'.compiler.host.files.contains f = false →
    s'.compiler.graph.graph.get? f = s.compiler.graph.graph.get? f
  unloaded : ∀ module, (∀ f ∈ s.compiler.graph.dependentsOf module,
    s'.compiler.host.files.contains f = true → s.compiler.host.files.contains f = true) →
      s'.unloadedDependents module = s.unloadedDependents module

/-- What building a file must be spared: declaration files that join the program, and recorded
importers that are loaded or that the graph itself is kept in. -/
structure Spared (U : Path → Prop) (s s' : Session) (file : Path) : Prop where
  declarations : ¬ AddsDeclaration s s'
  importers : ∀ f ∈ s.compiler.graph.dependentsOf file.normalize,
    s'.compiler.host.files.contains f = true → s.compiler.host.files.contains f = true
  apart : ∀ f ∈ s.compiler.graph.dependentsOf file.normalize, U f

theorem Beside.refl (U : Path → Prop) (q : Path) (s : Session) : Beside U q s s :=
  { config := rfl
    engine := Engine.Alike.refl _
    host := ServiceHost.Grows.refl _ _
    disk := fun _ _ => rfl
    test := fun _ _ => rfl
    recorded := fun _ _ => rfl
    unloaded := fun _ _ => rfl }

/-- Surroundings in which the files in `U` look as they did at first. -/
theorem Beside.change (b : Beside U q s s') {world : Surroundings}
    (he : Engine.Alike s.world.engine world.engine)
    (hd : ∀ p, U p → world.disk.picture p = s.world.disk.picture p) :
    Beside U q s { s' with world } :=
  { config := b.config
    engine := he
    host := b.host
    disk := hd
    test := b.test
    recorded := b.recorded
    unloaded := b.unloaded }

/-- If the graph has an entry for the file, others are not concerned. -/
theorem unloadedDependents_of_insert {g : DependencyGraph} {e : GraphEntry}
    (hg : s'.compiler.graph.graph = (g.insert q e).2) (hs : s.compiler.graph.graph = g)
    (hq : s'.compiler.host.files.contains q = true)
    (hc : ∀ f, s.compiler.host.files.contains f = true → s'.compiler.host.files.contains f = true)
    {module : Path} (hload : ∀ f ∈ s.compiler.graph.dependentsOf module,
      s'.compiler.host.files.contains f = true → s.compiler.host.files.contains f = true) :
    s'.unloadedDependents module = s.unloadedDependents module := by
  have hsame : ∀ f : Path, q.same f = true → s'.compiler.host.files.contains f = true := by
    intro f hf
    rw [FileTable.contains_eq_text?] at hq ⊢
    rwa [← FileTable.text?_congr hf]
  have hfilter : ∀ fs : List Path,
      fs.filter (fun f => !s'.compiler.host.files.contains f) =
        (fs.filter fun f => !q.same f).filter fun f => !s'.compiler.host.files.contains f := by
    intro fs
    rw [List.filter_filter]
    refine List.filter_congr fun f _ => ?_
    cases hf : q.same f with
    | true => simp [hsame f hf]
    | false => simp
  rw [unloadedDependents, GraphCache.dependentsOf, hg, hfilter,
    DependencyGraph.dependentsOf_insert, ← hfilter, unloadedDependents, GraphCache.dependentsOf, hs]
  refine List.filter_congr fun f hf => ?_
  have hf' : f ∈ s.compiler.graph.dependentsOf module := by
    rwa [GraphCache.dependentsOf, hs]
  rw [Bool.not_inj_iff, Bool.eq_iff_iff]
  exact ⟨hload f hf', hc f⟩

theorem record_graph (s : Session) (file : Path) (content : Text) (modules : List Path) :
    (s.record file content modules).compiler.graph.graph =
      (s.compiler.graph.graph.insert file ⟨content, modules⟩).2 := by
  simp only [Session.record, GraphCache.record]
  split
  · split <;> rfl
  · rfl

/-- Recording the modules of the file that the calls are about. -/
theorem Beside.record (b : Beside (ApartFromGraph c) q s t) (ht : Settled c t)
    (hg : t.compiler.graph = s.compiler.graph)
    (hq : t.compiler.host.files.contains q = true) (content : Text) (modules : List Path) :
    Beside (ApartFromGraph c) q s (t.record q content modules) :=
  { config := b.config
    engine := b.engine
    host := b.host
    disk := fun p hp => (picture_record ht q content modules hp).trans (b.disk p hp)
    test := b.test
    recorded := by
      intro f hf
      have hne : q.same f = false := by
        rw [Bool.eq_false_iff]
        intro hsame
        have hf' : t.compiler.host.files.contains f = false := hf
        rw [FileTable.contains_eq_text?, ← FileTable.text?_congr hsame,
          ← FileTable.contains_eq_text?, hq] at hf'
        cases hf'
      rw [record_graph, hg, DependencyGraph.get?_insert_of_not_same hne]
    unloaded := by
      intro module hload
      have hcontains : ∀ f, s.compiler.host.files.contains f = true →
          t.compiler.host.files.contains f = true := by
        intro f hf
        obtain ⟨r, hr⟩ := FileTable.contains_eq_true.mp hf
        exact FileTable.contains_eq_true.mpr ⟨r, b.host.known f r hr⟩
      exact unloadedDependents_of_insert (record_graph t q content modules)
        (congrArg GraphCache.graph hg.symm) hq hcontains hload }

/-- A request for the modules of a file leaves the engine set up as it is. -/
theorem resolvedModules_engine (s : Session) (content : Text) (file : Path) :
    Engine.Alike s.world.engine (s.resolvedModules content file).2.world.engine := by
  have hw := collectModules_widens (s.update file.normalize content) file.normalize
  obtain ⟨test, memo, htest⟩ := isTest_eq
    ((s.update file.normalize content).collectModules file.normalize).2 file.normalize
  rw [resolvedModules]
  split
  · exact Engine.Alike.refl _
  · simp only [htest]
    cases test with
    | true => exact hw.engine
    | false => exact hw.engine

/-- A request for the modules of a file, with the content that it has on disk. -/
theorem resolvedModules_beside (h : Settled c s) {path : Path}
    (hd : s.world.disk.read? path.normalize = some content)
    (hheld : ∀ t, s.held? path.normalize = some t → t = content) :
    Beside (ApartFromGraph c) path.normalize s (s.resolvedModules content path).2 := by
  have hp := Path.normalize_normalize path
  rw [resolvedModules]
  generalize path.normalize = q at hd hheld hp ⊢
  dsimp only
  split
  · exact .refl _ q s
  · -- The walk only widens the session in which the content is shown.
    have hgrows : ServiceHost.Grows s.world.view s.compiler.host
        (s.update q content).compiler.host := ServiceHost.grows_updateFile (by rw [hp]; exact hd) hheld
    have hw := collectModules_widens (s.update q content) q
    have hsettled := (h.update q content).widens hw
    have hcontains : ((s.update q content).collectModules q).2.compiler.host.files.contains q =
        true := by
      refine hw.contains ?_
      rw [Session.update, setHost, ServiceHost.contains_updateFile, Path.same_refl, Bool.true_or]
    generalize (s.update q content).collectModules q = walk at hw hsettled hcontains
    obtain ⟨modules, t⟩ := walk
    dsimp only at hw hsettled hcontains ⊢
    have hkept : ∀ f, s.compiler.host.files.contains f = true →
        t.compiler.host.files.contains f = true := by
      intro f hf
      obtain ⟨r, hr⟩ := FileTable.contains_eq_true.mp hf
      exact FileTable.contains_eq_true.mpr ⟨r, (hgrows.trans hw.host).known f r hr⟩
    have htest : ∀ p : Path, p.same q = false →
        ((t.isTest q).2.isTest p).1 = (s.isTest p).1 := by
      intro p hne
      have hcmp : Path.cmp p q ≠ .eq := by
        rw [ne_eq, Path.cmp_eq_iff_same, hne]
        exact Bool.false_ne_true
      have hconfig : t.config = s.config := hw.config
      have hmemo : t.compiler.memo = s.compiler.memo := hw.memo
      have hasked : ((t.isTest q).2.isTest p).1 = ((t.compiler.memo.ask Path.cmp
          t.config.tests.isMatch q).2.ask Path.cmp t.config.tests.isMatch p).1 := rfl
      rw [hasked, Memo.ask_of_ne _ _ hcmp, hconfig, hmemo]
      rfl
    have hbeside : Beside (ApartFromGraph c) q s (t.isTest q).2 :=
      { config := hw.config
        engine := hw.engine
        host := hgrows.trans hw.host
        disk := fun p _ => congrArg (Disk.picture · p) hw.disk
        test := htest
        recorded := fun f _ => congrArg (GraphCache.graph · |>.get? f) hw.graph
        unloaded := by
          intro module hload
          have hgraph : (t.isTest q).2.compiler.graph = s.compiler.graph := hw.graph
          rw [unloadedDependents, unloadedDependents, hgraph]
          refine List.filter_congr fun f hf => ?_
          rw [Bool.not_inj_iff, Bool.eq_iff_iff]
          exact ⟨hload f hf, hkept f⟩ }
    have hmemo : Settled c (t.isTest q).2 := ⟨hsettled.config, hsettled.graphFile, hsettled.dated⟩
    have hgraph : (t.isTest q).2.compiler.graph = s.compiler.graph := hw.graph
    have hloaded : (t.isTest q).2.compiler.host.files.contains q = true := hcontains
    cases ht : t.isTest q with
    | mk test m =>
      rw [ht] at hbeside hmemo hgraph hloaded
      cases test with
      | true => exact hbeside.record hmemo hgraph hloaded content modules
      | false => exact hbeside

/-- The importers of a file that is spared are checked with the same texts. -/
theorem sameDependents_beside (b : Beside U q s s') (hn : ∀ p, U p → U p.normalize)
    (hs : Spared U s s' file) :
    SameDependents U (fun f => f ∈ s.compiler.graph.dependentsOf file.normalize)
      (s.shown content file options) (s'.shown content file options) file.normalize := by
  have hlist := b.unloaded file.normalize hs.importers
  have hshown : (s.shown content file options).unloadedDependents file.normalize =
      (s'.shown content file options).unloadedDependents file.normalize := by
    rw [unloadedDependents_shown, unloadedDependents_shown, hlist]
  refine ⟨hshown, fun f hf => ?_⟩
  rw [hshown, unloadedDependents_shown] at hf
  have hf' := List.mem_of_mem_filter hf
  have hunloaded : s'.compiler.host.files.contains f = false := by
    rw [unloadedDependents, List.mem_filter, Bool.not_eq_true'] at hf'
    exact hf'.2
  rw [hlist] at hf'
  have hmem : f ∈ s.compiler.graph.dependentsOf file.normalize := List.mem_of_mem_filter hf'
  have happ := hs.apart f hmem
  refine ⟨hmem, hn f happ, ?_⟩
  have hread : s'.world.disk.read? f = s.world.disk.read? f :=
    congrArg Glimpse.text (b.disk f happ)
  show (s.world.disk.read? f <|> (s.compiler.graph.graph.get? f).map (·.content)) =
    (s'.world.disk.read? f <|> (s'.compiler.graph.graph.get? f).map (·.content))
  rw [hread, b.recorded f hunloaded]

/-- Building a file comes to the same verdict after calls about another one that it is spared
by. -/
theorem build_beside (b : Beside U q s s') (hU : ∀ p : Path, p.IsDotted → U p)
    (hn : ∀ p, U p → U p.normalize) (hfile : U file) (hne : file.normalize.same q = false)
    (hs : Spared U s s' file) :
    verdict ((s'.shown content file options).build file.normalize content).1 =
      verdict ((s.shown content file options).build file.normalize content).1 := by
  have ha : Alike U (fun f => f ∈ s.compiler.graph.dependentsOf file.normalize) s s' :=
    b.toLeaves.alike (fun _ _ hq => .inl hq) hs.importers hs.declarations
  have hshown : Alike U (fun f => f ∈ s.compiler.graph.dependentsOf file.normalize)
      (s.shown content file options) (s'.shown content file options) :=
    shown_alike ha (fun text p => by rw [b.config])
  have htest : ((s.shown content file options).isTest file.normalize).1 =
      ((s'.shown content file options).isTest file.normalize).1 :=
    (b.test _ hne).symm
  exact (build_alike hU (fun f hf => hn f (hs.apart f hf)) hshown
    (hn _ (hn _ hfile)) htest (fun _ => sameDependents_beside b hn hs) content).symm

/-! ## Two compilations of a file -/

/-- Whether an output that is at hand in only one of two sessions can be made in the other. -/
structure OutputsServe (p : Path) (content : Text) (s s' : Session) : Prop where
  left : s.reusable? p ≠ none → s'.reusable? p = none → (s'.build p content).1.isOk = true
  right : s.reusable? p = none → s'.reusable? p ≠ none → (s.build p content).1.isOk = true

instance (p : Path) (content : Text) (s s' : Session) : Decidable (OutputsServe p content s s') :=
  decidable_of_iff
    ((s.reusable? p ≠ none → s'.reusable? p = none → (s'.build p content).1.isOk = true) ∧
      (s.reusable? p = none → s'.reusable? p ≠ none → (s.build p content).1.isOk = true))
    ⟨fun h => ⟨h.1, h.2⟩, fun h => ⟨h.left, h.right⟩⟩

/-- Whether no check misses a name that is declared when the file is checked in the other
session. -/
def NamesAgree (p : Path) (s s' : Session) : Prop :=
  ∀ c ∈ s.checks p, ∀ c' ∈ s'.checks p, c.file = c'.file → Check.SameNames c c'

instance (p : Path) (s s' : Session) : Decidable (NamesAgree p s s') :=
  inferInstanceAs (Decidable (∀ c ∈ s.checks p, ∀ c' ∈ s'.checks p, c.file = c'.file →
    Check.SameNames c c'))

/-- Whether files that are checked in both sessions have the same values in both. -/
def ValuesAgree (p : Path) (s s' : Session) : Prop :=
  ∀ c ∈ s.checks p, ∀ c' ∈ s'.checks p, c.file = c'.file →
    SameValues searchLimit c.session.picture c'.session.picture c.file

instance (p : Path) (s s' : Session) : Decidable (ValuesAgree p s s') :=
  inferInstanceAs (Decidable (∀ c ∈ s.checks p, ∀ c' ∈ s'.checks p, c.file = c'.file →
    SameValues searchLimit c.session.picture c'.session.picture c.file))

/-- Whether the checks that are made in only one session pass. -/
structure OthersPass (p : Path) (s s' : Session) : Prop where
  left : ∀ c ∈ s.checks p, (∀ c' ∈ s'.checks p, c.file ≠ c'.file) → c.outcome.isOk = true
  right : ∀ c' ∈ s'.checks p, (∀ c ∈ s.checks p, c.file ≠ c'.file) → c'.outcome.isOk = true

instance (p : Path) (s s' : Session) : Decidable (OthersPass p s s') :=
  decidable_of_iff
    ((∀ c ∈ s.checks p, (∀ c' ∈ s'.checks p, c.file ≠ c'.file) → c.outcome.isOk = true) ∧
      ∀ c' ∈ s'.checks p, (∀ c ∈ s.checks p, c.file ≠ c'.file) → c'.outcome.isOk = true)
    ⟨fun h => ⟨h.1, h.2⟩, fun h => ⟨h.left, h.right⟩⟩

/-- Building a file that is shown in two sessions comes to the same verdict if the checks of it
and its importers agree. -/
theorem verdict_build_shown (ha : SameSetup s s')
    (hnames : NamesAgree file.normalize (s.shown content file options)
      (s'.shown content file options))
    (hvalues : ValuesAgree file.normalize (s.shown content file options)
      (s'.shown content file options))
    (hothers : OthersPass file.normalize (s.shown content file options)
      (s'.shown content file options)) :
    verdict ((s.shown content file options).build file.normalize content).1 =
      verdict ((s'.shown content file options).build file.normalize content).1 := by
  have hemits : ∀ t : Session, t.config = s.config → ∀ text,
      Miniature.emit text file.normalize (t.shown content file options).compiler.host.options =
        Miniature.emit text file.normalize (s.config.optionsFor options) := by
    intro t ht text
    rw [shown, options_update, ← ht]
    exact ServiceHost.emit_setOptions _ _ _ _
  have hemitted : ((s.shown content file options).ask Engine.emitFile file.normalize).1 =
      ((s'.shown content file options).ask Engine.emitFile file.normalize).1 :=
    emitted_eq ha.engine (fun text => (hemits s rfl text).trans (hemits s' ha.config text).symm)
      (Path.normalize_normalize file) (held?_update_self _ _ _) (held?_update_self _ _ _)
  exact verdict_build ⟨ha.config, ha.engine⟩ hemitted
    (fun c hc c' hc' hfile _ => ⟨hnames c hc c' hc' hfile, hvalues c hc c' hc' hfile⟩)
    hothers.left hothers.right

/-- Two sessions that give an output for a file give the same. -/
theorem eq_of_isOk (h : Valid c s) (h' : Valid c s') (content : Text) (file : Path)
    (options : TransformOptions)
    (hok : (s.compile content file options).1.isOk = true)
    (hok' : (s'.compile content file options).1.isOk = true) :
    verdict (s.compile content file options).1 = verdict (s'.compile content file options).1 := by
  obtain ⟨out, hout⟩ := Except.exists_of_isOk hok
  obtain ⟨out', hout'⟩ := Except.exists_of_isOk hok'
  have hemitted := ((compile_spec h content file options).2 out hout).emitted
  have hemitted' := ((compile_spec h' content file options).2 out' hout').emitted
  rw [hout, hout', hemitted, hemitted']

/-- Compiling a file comes to the same verdict in two sessions if it does when it is built in
both, and otherwise the one that builds it succeeds. -/
theorem verdict_compile (h : Valid c s) (h' : Valid c s')
    (houtputs : OutputsServe file.normalize content (s.shown content file options)
      (s'.shown content file options))
    (hbuilt : (s.shown content file options).reusable? file.normalize = none →
      (s'.shown content file options).reusable? file.normalize = none →
      verdict ((s.shown content file options).build file.normalize content).1 =
        verdict ((s'.shown content file options).build file.normalize content).1) :
    verdict (s.compile content file options).1 = verdict (s'.compile content file options).1 := by
  have hsame := eq_of_isOk h h' content file options
  rw [compile_eq, compile_eq] at hsame ⊢
  cases hr : (s.shown content file options).reusable? file.normalize with
  | some out =>
    cases hr' : (s'.shown content file options).reusable? file.normalize with
    | some out' =>
      rw [hr, hr'] at hsame
      exact hsame rfl rfl
    | none =>
      rw [hr, hr'] at hsame
      exact hsame rfl (houtputs.left (by rw [hr]; exact Option.some_ne_none out) hr')
  | none =>
    cases hr' : (s'.shown content file options).reusable? file.normalize with
    | some out' =>
      rw [hr, hr'] at hsame
      exact hsame (houtputs.right hr (by rw [hr']; exact Option.some_ne_none out')) rfl
    | none => exact hbuilt hr hr'

end Session
end LanguageCompiler
end TestTransform

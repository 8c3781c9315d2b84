/-
Compilers that have just been made.

Such a compiler knows its configuration and what is on disk, and nothing else.  So two of them
come to the same verdict on a text if their configurations compile alike.  A file of a
referenced project is not compiled; there the verdict rests on the output that is found for it.
-/
import TestTransform.Compiler.Basic
import TestTransform.Proofs.Compiler.Reached
import TestTransform.Proofs.Config.Alike

namespace TestTransform

open CompileError (verdict)

/-- Untyped options do not bear on what is emitted. -/
theorem Miniature.emit_congr {o o' : CompilerOptions} (h : o.typed = o'.typed) (source : Text)
    (file : Path) : emit source file o = emit source file o' := by
  have htyped : ∀ o : CompilerOptions, emit source file o = emit source file o.typed :=
    fun _ => rfl
  rw [htyped o, h, ← htyped o']

theorem Engine.transpile_alike {e e' : Engine} (a : Alike e e') {o o' : CompilerOptions}
    (h : o.typed = o'.typed) (source : Text) (file : Path) (report : Bool) :
    (e.transpile source file o report).1 = (e'.transpile source file o' report).1 := by
  cases e with
  | miniature e =>
    cases e' with
    | miniature e' =>
      simp only [transpile, Miniature.Engine.transpile, Miniature.emit_congr h]
    | scripted e' => exact a.elim
  | scripted e =>
    cases e' with
    | miniature e' => exact a.elim
    | scripted e' =>
      have htable : e.transpiles = e'.transpiles := (congrArg Scripted.Engine.transpiles a :)
      simp only [transpile, Scripted.Engine.transpile, htable]

/-! ## Isolated modules -/

namespace IsolatedCompiler

variable {c c' : ConfigSet} {w w' : Surroundings} {file : Path}
  {options options' : TransformOptions}

/-- Where the output of a file is looked for, if the file belongs to a referenced project. -/
def outputPath? (c : ConfigSet) (file : Path) : Option Path :=
  (c.referenceFor? file).map fun r => r.outputFor file

/-- Whether the output of a file is looked for in the same place, and the same is found there
on two disks. -/
structure SameOutput (c c' : ConfigSet) (d d' : Disk) (file : Path) : Prop where
  path : outputPath? c file = outputPath? c' file
  output : ∀ q ∈ outputPath? c file, d.picture q = d'.picture q
  map : ∀ q ∈ outputPath? c file, d.read? (q.append ".map") = d'.read? (q.append ".map")

theorem readReferenced_congr {d d' : Disk} {r r' : ProjectReference}
    (hpath : r.outputFor file = r'.outputFor file)
    (houtput : d.picture (r.outputFor file) = d'.picture (r.outputFor file))
    (hmap : d.read? ((r.outputFor file).append ".map") =
      d'.read? ((r.outputFor file).append ".map")) :
    verdict (readReferenced d r file) = verdict (readReferenced d' r' file) := by
  have hfile : d.hasFile (r.outputFor file) = d'.hasFile (r.outputFor file) :=
    congrArg Glimpse.isFile houtput
  have hread : d.read? (r.outputFor file) = d'.read? (r.outputFor file) :=
    congrArg Glimpse.text houtput
  rw [readReferenced, readReferenced, ← hpath, hfile, hmap]
  by_cases hexists : d'.hasFile (r.outputFor file) = true
  · rw [if_pos hexists, if_pos hexists]
    rw [Disk.read?, Disk.read?] at hread
    cases hl : d.read (r.outputFor file) with
    | ok code =>
      cases hr : d'.read (r.outputFor file) with
      | ok code' =>
        rw [hl, hr] at hread
        cases hread
        rfl
      | error e' =>
        rw [hl, hr] at hread
        cases hread
    | error e =>
      cases hr : d'.read (r.outputFor file) with
      | ok code' =>
        rw [hl, hr] at hread
        cases hread
      | error e' => rfl
  · rw [if_neg hexists, if_neg hexists]
    rfl

theorem transpile_alike (a : c.Alike c') (he : Engine.Alike w.engine w'.engine)
    (hesm : c.useEsm = true → options.supportsEsm = options'.supportsEsm) (content : Text)
    (file : Path) : verdict (transpile c content file options w).1 =
      verdict (transpile c' content file options' w').1 := by
  have hout := Engine.transpile_alike he (a.optionsFor hesm) content file (c'.shouldReport file)
  simp only [transpile, a.shouldReport, hout]
  by_cases hreport : c'.shouldReport file = true
  · simp only [if_pos hreport, Surroundings.raise, ConfigSet.judge_congr a.diagnostics]
    split
    · rfl
    · rfl
  · simp only [if_neg hreport]

/-- Compiling a text on its own comes to the same verdict. -/
theorem compile_alike (a : c.Alike c') (he : Engine.Alike w.engine w'.engine)
    (hesm : c.useEsm = true → options.supportsEsm = options'.supportsEsm)
    (hsame : SameOutput c c' w.disk w'.disk file.normalize) (content : Text) :
    verdict (compile c content file options w).1 =
      verdict (compile c' content file options' w').1 := by
  obtain ⟨hpath, houtput, hmap⟩ := hsame
  rw [compile, compile]
  rw [outputPath?, outputPath?] at hpath
  rw [outputPath?] at houtput hmap
  cases hl : c.referenceFor? file.normalize with
  | none =>
    rw [hl] at hpath
    have hr : c'.referenceFor? file.normalize = none := Option.map_eq_none_iff.mp hpath.symm
    rw [hr]
    exact transpile_alike a he hesm content _
  | some r =>
    rw [hl] at hpath houtput hmap
    obtain ⟨r', hr, hsame⟩ := Option.map_eq_some_iff.mp hpath.symm
    rw [hr]
    exact readReferenced_congr hsame.symm (houtput _ rfl) (hmap _ rfl)

end IsolatedCompiler

/-! ## Programs -/

namespace LanguageCompiler

variable {c c' : ConfigSet} {w w' : Surroundings} {file : Path}
  {options options' : TransformOptions}

/-- A compiler that has just been made, at work. -/
def newSession (c : ConfigSet) (w : Surroundings) : Session := ⟨create w.view c, w⟩

/-- The graph that a compiler finds when it is made. -/
def foundGraph (view : FileView) (c : ConfigSet) : DependencyGraph :=
  (GraphCache.openAt view c.cacheDirectory).graph

/-- What a compiler that has just been made is about, besides its configuration: the project
and the graph that it finds. -/
structure SameProject (view : FileView) (c c' : ConfigSet) : Prop where
  fileNames : c.fileNames = c'.fileNames
  graph : foundGraph view c = foundGraph view c'

theorem newSession_alike (a : c.Alike c') (hp : SameProject w.view c c') (hdisk : w.disk = w'.disk)
    (he : Engine.Alike w.engine w'.engine)
    (hesm : c.useEsm = true → options.supportsEsm = options'.supportsEsm) (content : Text) :
    Session.Alike (fun _ => True) (fun _ => True) ((newSession c w).shown content file options)
      ((newSession c' w').shown content file options') := by
  have hroots : (newSession c w).compiler.host.rootFiles =
      (newSession c' w').compiler.host.rootFiles := by
    show (c.tests.filterOut {} c.fileNames).1 = (c'.tests.filterOut {} c'.fileNames).1
    rw [a.tests, hp.fileNames]
  have hhost : ServiceHost.Alike (fun _ => True) (fun _ => True) w.disk w'.disk
      (newSession c w).compiler.host (newSession c' w').compiler.host := by
    rw [← hdisk]
    refine (ServiceHost.Alike.refl _ _ _ (newSession c w).compiler.host).of_files rfl rfl rfl ?_
    exact hroots.symm
  refine Session.shown_alike ⟨a.diagnostics, he, hhost, fun text p => ?_⟩ fun text p => ?_
  · exact Miniature.emit_congr (a.optionsFor fun _ => rfl) text p
  · exact Miniature.emit_congr (a.optionsFor hesm) text p

/-- Nothing has been compiled yet that could be given again. -/
theorem reusable?_newSession (content : Text) (file : Path) (options : TransformOptions) :
    ((newSession c w).shown content file options).reusable? file.normalize = none := by
  have hempty : ((newSession c w).compiler.host.setOptions (c.optionsFor options)).files = {} := by
    rw [ServiceHost.setOptions]
    split <;> rfl
  rcases ServiceHost.updateFile_cases
    ((newSession c w).compiler.host.setOptions (c.optionsFor options)) file.normalize content with
    ⟨ht, -⟩ | ⟨-, version, hu⟩
  · rw [hempty] at ht
    cases ht
  · have hnone : ∀ v, (((newSession c w).compiler.host.setOptions
        (c.optionsFor options)).updateFile file.normalize content).2.files.output?
          file.normalize v = none := by
      intro v
      rw [hu, Option.eq_none_iff_forall_not_mem]
      intro out hout
      obtain ⟨r, hr, ho⟩ := FileTable.output?_eq_some.mp hout
      rw [FileTable.get?_put, if_pos (Path.same_refl _)] at hr
      cases hr
      cases ho
    exact hnone _

/-- Compiling a file as part of a new program comes to the same verdict. -/
theorem compile_newSession (a : c.Alike c') (hp : SameProject w.view c c')
    (hdisk : w.disk = w'.disk) (he : Engine.Alike w.engine w'.engine)
    (hesm : c.useEsm = true → options.supportsEsm = options'.supportsEsm) (content : Text)
    (file : Path) : verdict ((newSession c w).compile content file options).1 =
      verdict ((newSession c' w').compile content file options').1 := by
  have ha : Session.Alike (fun _ => True) (fun _ => True)
      ((newSession c w).shown content file options)
      ((newSession c' w').shown content file options') :=
    newSession_alike a hp hdisk he hesm content
  have hview : w.view = w'.view := by rw [Surroundings.view, hdisk, Surroundings.view]
  have hgraph :
      (newSession c w).compiler.graph.graph = (newSession c' w').compiler.graph.graph := by
    show foundGraph w.view c = foundGraph w'.view c'
    rw [← hview, hp.graph]
  have htest : (((newSession c w).shown content file options).isTest file.normalize).1 =
      (((newSession c' w').shown content file options').isTest file.normalize).1 := by
    show (c.tests.isTest (c.tests.filterOut {} c.fileNames).2 file.normalize).1 =
      (c'.tests.isTest (c'.tests.filterOut {} c'.fileNames).2 file.normalize).1
    rw [a.tests, hp.fileNames]
  have hdependents : Session.SameDependents (fun _ => True) (fun _ => True)
      ((newSession c w).shown content file options)
      ((newSession c' w').shown content file options') file.normalize := by
    refine ⟨?_, fun f _ => ⟨trivial, trivial, ?_⟩⟩
    · show ((newSession c w).compiler.graph.graph.dependentsOf _).filter _ =
        ((newSession c' w').compiler.graph.graph.dependentsOf _).filter _
      rw [hgraph]
      refine List.filter_congr fun f _ => ?_
      exact congrArg (!·) (ha.service.host.loaded f trivial)
    · show (w.disk.read? f <|> ((newSession c w).compiler.graph.graph.get? f).map (·.content)) =
        (w'.disk.read? f <|> ((newSession c' w').compiler.graph.graph.get? f).map (·.content))
      rw [hdisk, hgraph]
  rw [Session.compile_eq, Session.compile_eq, reusable?_newSession, reusable?_newSession]
  exact Session.build_alike (fun _ _ => trivial) (fun _ _ => trivial) ha trivial htest
    (fun _ => hdependents) content

end LanguageCompiler
end TestTransform

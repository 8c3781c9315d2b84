/-
The sessions of a compiler.

A compiler is made and then called again and again, while files and engines may change in
any way between two calls.  Whatever happens, its configuration and the file of its graph
stay, and no output goes with a state of the project that is still to come.

What a call may leave behind is `Leaves`: a host that has grown, and disks that show the
same of the files that matter.  Such a session looks to an engine as it did before, unless a
declaration file has become part of the program.
-/
import TestTransform.Proofs.Compiler.Calls
import TestTransform.Proofs.Compiler.Verdict
import TestTransform.Proofs.Files.Apart
import TestTransform.Proofs.Json.Equality
import TestTransform.Proofs.Miniature.Emit

namespace TestTransform

/-! ## Options equal themselves -/

namespace CompilerOptions

theorem same_refl (o : CompilerOptions) : o.same o = true := by
  have hflag : ∀ name get set, (flag name get set).agree o o = true := by
    intro name get set
    exact beq_self_eq_true (get o)
  have hpath : ∀ name get set, (pathSlot name get set).agree o o = true := by
    intro name get set
    cases h : get o with
    | none => simp [pathSlot, h]
    | some p => simp [pathSlot, h, Path.same_refl]
  rw [same, Bool.and_eq_true]
  refine ⟨?_, Json.sameFields_refl o.other⟩
  simp [slots, hflag, hpath]

end CompilerOptions

namespace ServiceHost

/-- After options have been set, setting them once more changes nothing. -/
theorem same_setOptions (h : ServiceHost) (o : CompilerOptions) :
    (h.setOptions o).options.same o = true := by
  rw [setOptions]
  split
  · assumption
  · exact o.same_refl

/-! ## The states that outputs were remembered in -/

/-- No output goes with a state that is still to come. -/
def Dated (h : ServiceHost) : Prop :=
  ∀ p r v out, h.files.get? p = some r → r.output = some (v, out) → v ≤ h.projectVersion

namespace Dated

variable {h h' : ServiceHost}

theorem grows {view : FileView} (hd : Dated h) (g : Grows view h h') : Dated h' := by
  intro p r v out hp ho
  have hversion := g.version
  cases hold : h.files.get? p with
  | none =>
    rw [(g.new p r hold hp).2] at ho
    cases ho
  | some r' =>
    have hr := g.known p r' hold
    rw [hp] at hr
    cases hr
    exact Nat.le_trans (hd p r v out hold ho) hversion

theorem updateFile (hd : Dated h) (p : Path) (text : Text) : Dated (h.updateFile p text).2 := by
  rcases updateFile_cases h p text with ⟨-, hu⟩ | ⟨-, version, hu⟩
  · rwa [hu]
  · rw [hu]
    intro q r v out hq ho
    rw [FileTable.get?_put] at hq
    split at hq
    · cases hq
      cases ho
    · exact Nat.le_succ_of_le (hd q r v out hq ho)

theorem setOptions (hd : Dated h) (o : CompilerOptions) : Dated (h.setOptions o) := by
  rw [ServiceHost.setOptions]
  split
  · exact hd
  · intro p r v out hp ho
    exact Nat.le_succ_of_le (hd p r v out hp ho)

theorem storeOutput (hd : Dated h) (p : Path) (out : CompiledOutput) :
    Dated { h with files := h.files.storeOutput p h.projectVersion out } := by
  intro q r v o hq ho
  rw [FileTable.get?_storeOutput] at hq
  split at hq
  · obtain ⟨r', -, rfl⟩ := Option.map_eq_some_iff.mp hq
    cases ho
    exact Nat.le_refl _
  · exact hd q r v o hq ho

end Dated
end ServiceHost

namespace Memo

variable {κ υ : Type} {cmp : κ → κ → Ordering}

/-- What was asked is remembered. -/
theorem ask_again [Std.TransCmp cmp] (compute : κ → υ) (m : Memo κ υ) (k : κ) :
    ((m.ask cmp compute k).2.ask cmp compute k).1 = (m.ask cmp compute k).1 := by
  cases h : Assoc.find? cmp k m.entries with
  | some v => simp [ask, h]
  | none => simp [ask, h, Assoc.find?_insert_self]

end Memo

namespace LanguageCompiler
namespace Session

open CompileError (verdict)

variable {c : ConfigSet} {o : CompilerOptions} {p file : Path} {content : Text}
  {s s' t u : Session}

/-! ## What a compilation keeps -/

/-- The session in which a compilation begins: its options are set, its text is shown. -/
def shown (s : Session) (content : Text) (file : Path) (options : TransformOptions) : Session :=
  (s.setOptions options).update file.normalize content

theorem compile_eq (s : Session) (content : Text) (file : Path) (options : TransformOptions) :
    s.compile content file options =
      match (s.shown content file options).reusable? file.normalize with
      | some out => (.ok out, s.shown content file options)
      | none => (s.shown content file options).build file.normalize content := rfl

/-- Two sessions that look alike do so when a compilation of one text begins in them that
leads to the same code. -/
theorem shown_alike {V W : Path → Prop} {options options' : TransformOptions}
    (a : Alike V W s s') (hemits : ∀ text p, Miniature.emit text p (s.config.optionsFor options) =
      Miniature.emit text p (s'.config.optionsFor options')) :
    Alike V W (s.shown content file options) (s'.shown content file options') := by
  have hset : ∀ (h : ServiceHost) (o : CompilerOptions),
      (h.setOptions o).files = h.files ∧ (h.setOptions o).rootFiles = h.rootFiles := by
    intro h o
    rw [ServiceHost.setOptions]
    split <;> exact ⟨rfl, rfl⟩
  have hbegun : Alike V W (s.setOptions options) (s'.setOptions options') := by
    refine ⟨a.diagnostics, a.service.engine, ?_, fun text p => ?_⟩
    · exact a.service.host.of_files (hset _ _).1 (hset _ _).1 (hset _ _).2 (hset _ _).2
    · show Miniature.emit text p (s.compiler.host.setOptions (s.config.optionsFor options)).options =
        Miniature.emit text p (s'.compiler.host.setOptions (s'.config.optionsFor options')).options
      rw [ServiceHost.emit_setOptions, ServiceHost.emit_setOptions, hemits]
  exact hbegun.update _ _

/-- What holds of every session of a compiler. -/
structure Settled (c : ConfigSet) (s : Session) : Prop where
  config : s.config = c
  graphFile : s.compiler.graph.file = (GraphCache.new c.cacheDirectory).file
  dated : s.compiler.host.Dated

/-- A session in which a file with a text is being compiled, under options that are set. -/
structure Working (c : ConfigSet) (o : CompilerOptions) (p : Path) (content : Text)
    (s : Session) : Prop extends Settled c s where
  options : s.compiler.host.options = o
  held : s.held? p = some content

theorem Settled.widens (h : Settled c s) (w : Widens s s') : Settled c s' :=
  ⟨w.config.trans h.config, by rw [w.graph, h.graphFile], h.dated.grows w.host⟩

theorem Settled.update (h : Settled c s) (file : Path) (text : Text) :
    Settled c (s.update file text) :=
  ⟨h.config, h.graphFile, h.dated.updateFile file text⟩

theorem record_file (s : Session) (file : Path) (content : Text) (modules : List Path) :
    (s.record file content modules).compiler.graph.file = s.compiler.graph.file := by
  simp only [Session.record, GraphCache.record]
  split
  · split <;> rfl
  · rfl

theorem Settled.record (h : Settled c s) (file : Path) (content : Text) (modules : List Path) :
    Settled c (s.record file content modules) :=
  ⟨h.config, by rw [record_file, h.graphFile], h.dated⟩

theorem Working.widens (h : Working c o p content s) (w : Widens s s') :
    Working c o p content s' :=
  { h.toSettled.widens w with
    options := w.host.options.trans h.options
    held := w.host.text?_eq h.held }

/-- Showing a text for another file. -/
theorem Working.update (h : Working c o p content s) {file : Path} (hne : p.same file = false)
    (text : Text) : Working c o p content (s.update file text) :=
  { h.toSettled.update file text with
    options := by rw [options_update, h.options]
    held := by
      rw [held?_update, hne]
      exact h.held }

theorem recheck_working (files : List Path) (h : Working c o p content s)
    (hne : ∀ f ∈ files, p.same f = false) : Working c o p content (s.recheck files).2 := by
  induction files generalizing s with
  | nil => exact h
  | cons f files ih =>
    have hrest : ∀ g ∈ files, p.same g = false := fun g hg => hne g (List.mem_cons_of_mem _ hg)
    rw [recheck]
    split
    · exact ih h hrest
    · rename_i text _
      have hu := h.update (hne f List.mem_cons_self) text
      have hc := hu.widens (typeCheck_widens _ f)
      split <;> rename_i heq <;> rw [heq] at hc
      · exact ih hc hrest
      · exact hc

theorem followUp_working (h : Working c o p content s) :
    Working c o p content (s.followUp p content).2 := by
  obtain ⟨test, memo, ht⟩ := isTest_eq s p
  have hmemo : Working c o p content { s with compiler := { s.compiler with memo } } :=
    ⟨⟨h.config, h.graphFile, h.dated⟩, h.options, h.held⟩
  rw [followUp, ht]
  cases test with
  | true =>
    have hw := hmemo.widens (collectModules_widens _ p)
    exact ⟨hw.toSettled.record p content _, hw.options, hw.held⟩
  | false => exact recheck_working _ hmemo (not_same_of_unloaded hmemo.held p)

theorem remember_working (h : Working c o p content s) (out : CompiledOutput) :
    Working c o p content (s.remember p out) :=
  ⟨⟨h.config, h.graphFile, h.dated.storeOutput p out⟩, h.options, by
    rw [held?, remember, setHost, FileTable.text?_storeOutput]
    exact h.held⟩

theorem build_working (h : Working c o p content s) :
    Working c o p content (s.build p content).2 := by
  have hcheck := h.widens (ownCheck_widens s p)
  rw [build_eq]
  split
  · rename_i heq
    rwa [heq] at hcheck
  · rename_i heq
    rw [heq] at hcheck
    have hfollow := followUp_working hcheck
    split
    · rename_i heq'
      rwa [heq'] at hfollow
    · rename_i heq'
      rw [heq'] at hfollow
      split
      · exact hfollow
      · exact remember_working hfollow _

theorem shown_working (h : Settled c s) (content : Text) (file : Path)
    (options : TransformOptions) :
    Working c (s.compiler.host.setOptions (c.optionsFor options)).options file.normalize content
      (s.shown content file options) := by
  have hset : Settled c (s.setOptions options) := ⟨h.config, h.graphFile, h.dated.setOptions _⟩
  refine ⟨hset.update _ _, ?_, ?_⟩
  · rw [shown, options_update, ← h.config]
    rfl
  · rw [shown, held?_update_self]

theorem compile_working (h : Settled c s) (content : Text) (file : Path)
    (options : TransformOptions) :
    Working c (s.compiler.host.setOptions (c.optionsFor options)).options file.normalize content
      (s.compile content file options).2 := by
  have hshown := shown_working h content file options
  rw [compile_eq]
  split
  · exact hshown
  · exact build_working hshown

/-- A compilation that begins where the same one has ended finds everything in place. -/
theorem shown_again (h : Working c o file.normalize content s) {options : TransformOptions}
    (ho : o.same (c.optionsFor options) = true) : s.shown content file options = s := by
  have hset : s.setOptions options = s := by
    rw [Session.setOptions, h.config, ServiceHost.setOptions, h.options, if_pos ho]
    rfl
  rw [shown, hset, Session.update]
  rcases ServiceHost.updateFile_cases s.compiler.host file.normalize content with ⟨-, hu⟩ | ⟨hn, -⟩
  · rw [hu]
    rfl
  · exact absurd h.held hn

/-! ## The sessions there are -/

/-- The sessions of a compiler: it is made, and called again and again, while files and
engines may change in any way between two calls. -/
inductive Reached (c : ConfigSet) : Session → Prop where
  | create (view : FileView) (world : Surroundings) :
      Reached c ⟨LanguageCompiler.create view c, world⟩
  | compile {s : Session} (content : Text) (file : Path) (options : TransformOptions) :
      Reached c s → Reached c (s.compile content file options).2
  | resolvedModules {s : Session} (content : Text) (file : Path) :
      Reached c s → Reached c (s.resolvedModules content file).2
  | change {s : Session} (world : Surroundings) : Reached c s → Reached c { s with world }

theorem resolvedModules_settled (h : Settled c s) (content : Text) (file : Path) :
    Settled c (s.resolvedModules content file).2 := by
  rw [resolvedModules]
  split
  · exact h
  · have hu := h.update file.normalize content
    have hw := hu.widens (collectModules_widens _ file.normalize)
    obtain ⟨test, memo, ht⟩ := isTest_eq
      ((s.update file.normalize content).collectModules file.normalize).2 file.normalize
    have hmemo : Settled c { ((s.update file.normalize content).collectModules
        file.normalize).2 with compiler := { ((s.update file.normalize content).collectModules
          file.normalize).2.compiler with memo } } :=
      ⟨hw.config, hw.graphFile, hw.dated⟩
    simp only [ht]
    cases test with
    | true => exact hmemo.record _ _ _
    | false => exact hmemo

theorem Reached.settled (h : Reached c s) : Settled c s := by
  induction h with
  | create view world =>
    refine ⟨rfl, ?_, ?_⟩
    · show (GraphCache.openAt view c.cacheDirectory).file = _
      rw [GraphCache.openAt, GraphCache.load]
      split
      · rfl
      · split
        · rfl
        · rfl
    · intro p r v out hp
      cases hp
  | compile content file options _ ih => exact (compile_working ih content file options).toSettled
  | resolvedModules content file _ ih => exact resolvedModules_settled ih content file
  | change world _ ih => exact ⟨ih.config, ih.graphFile, ih.dated⟩

/-! ## What is left behind -/

/-- Whether a declaration file is part of the program in the second session only. -/
def AddsDeclaration (s s' : Session) : Prop :=
  ∃ f : Path, f.isDeclaration = true ∧ s.compiler.host.isScript f = false ∧
    s'.compiler.host.isScript f = true

/-- There is none among the names of the program. -/
theorem not_addsDeclaration
    (h : ∀ name ∈ s'.compiler.host.scriptNames, name.isDeclaration = false) :
    ¬ AddsDeclaration s s' := by
  rintro ⟨f, hf, -, hscript⟩
  rw [ServiceHost.isScript, Bool.or_eq_true, ← ServiceHost.exists_scriptNames_iff] at hscript
  obtain ⟨name, hname, hsame⟩ := hscript
  have hdeclaration := Path.isDeclaration_congr hsame
  rw [h name hname, hf] at hdeclaration
  cases hdeclaration

/-- What is left behind by calls that only ask questions, record modules and remember which
files are tests.  The disk shows the same of the files in `U`. -/
structure Leaves (U : Path → Prop) (s s' : Session) : Prop where
  config : s'.config = s.config
  engine : Engine.Alike s.world.engine s'.world.engine
  host : ServiceHost.Grows s.world.view s.compiler.host s'.compiler.host
  disk : ∀ q, U q → s'.world.disk.picture q = s.world.disk.picture q

section Leaves

variable {U V W : Path → Prop}

theorem Widens.leaves (w : Widens s s') : Leaves U s s' :=
  ⟨w.config, w.engine, w.host, fun q _ => by rw [w.disk]⟩

/-- A file that is held is held as before. -/
theorem Leaves.picture_eq_of_held (l : Leaves U s s') {q : Path} (hn : q.normalize = q)
    {text : Text} (ht : s.held? q = some text) : s'.picture q = s.picture q := by
  have ht' : s'.held? q = some text := l.host.text?_eq ht
  rw [Session.picture_eq_of_held hn ht, Session.picture_eq_of_held hn ht']

/-- A file in `U` looks as before, whether it is held, was taken in or is on disk. -/
theorem Leaves.picture_eq (l : Leaves U s s') {q : Path} (hn : q.normalize = q) (hq : U q) :
    s'.picture q = s.picture q := by
  cases ht : s.held? q with
  | some text => exact l.picture_eq_of_held hn ht
  | none =>
    rw [picture_eq_of_not_held hn ht]
    cases ht' : s'.held? q with
    | some text =>
      have hread : s.world.disk.read? q = some text := by
        rcases l.host.text?_cases ht' with h | ⟨-, h⟩
        · rw [held?, h] at ht
          cases ht
        · rwa [hn] at h
      rw [Session.picture_eq_of_held hn ht', Disk.picture, hread, Disk.hasFile_of_read? hread]
    | none => rw [picture_eq_of_not_held hn ht', l.disk q hq]

/-- Afterwards the session looks as before, as long as no declaration file was added. -/
theorem Leaves.alike (l : Leaves U s s')
    (hV : ∀ q : Path, q.normalize = q → V q → U q ∨ (s.held? q).isSome = true)
    (hW : ∀ f, W f → s'.compiler.host.files.contains f = true →
      s.compiler.host.files.contains f = true)
    (hadds : ¬ AddsDeclaration s s') : Alike V W s s' := by
  have hcontains : ∀ f, s.compiler.host.files.contains f = true →
      s'.compiler.host.files.contains f = true := by
    intro f hf
    obtain ⟨r, hr⟩ := FileTable.contains_eq_true.mp hf
    exact FileTable.contains_eq_true.mpr ⟨r, l.host.known f r hr⟩
  refine ⟨by rw [l.config], l.engine, ⟨?_, ?_, ?_⟩, ?_⟩
  · intro q hq
    have hnormal : ∀ r : Session, r.picture q = r.picture q.normalize := fun r =>
      ServiceHost.picture_congr _ _ (Path.normalize_normalize q).symm
    have hn := Path.normalize_normalize q
    show s.picture q = s'.picture q
    rw [hnormal s, hnormal s']
    rcases hV _ hn hq with hq | hheld
    · rw [l.picture_eq hn hq]
    · obtain ⟨text, ht⟩ := Option.isSome_iff_exists.mp hheld
      rw [l.picture_eq_of_held hn ht]
  · intro f hf
    show s.compiler.host.isScript f = s'.compiler.host.isScript f
    cases hs : s.compiler.host.isScript f with
    | true =>
      rw [ServiceHost.isScript, Bool.or_eq_true] at hs
      symm
      rw [ServiceHost.isScript, Bool.or_eq_true, l.host.isRoot_eq]
      exact hs.imp_left (hcontains f)
    | false =>
      cases hs' : s'.compiler.host.isScript f with
      | false => rfl
      | true => exact absurd ⟨f, hf, hs, hs'⟩ hadds
  · intro f hf
    show s.compiler.host.files.contains f = s'.compiler.host.files.contains f
    rw [Bool.eq_iff_iff]
    exact ⟨hcontains f, hW f hf⟩
  · intro text q
    show Miniature.emit text q s.compiler.host.options =
      Miniature.emit text q s'.compiler.host.options
    rw [l.host.options]

end Leaves

/-! ## The file of the graph -/

/-- Recording leaves the disk as it is, or writes the graph's file. -/
theorem record_disk (s : Session) (file : Path) (content : Text) (modules : List Path) :
    (s.record file content modules).world.disk = s.world.disk ∨
      ∃ g text, s.compiler.graph.file = some g ∧
        s.world.disk.write g text = .ok (s.record file content modules).world.disk := by
  rw [Session.record, GraphCache.record]
  cases s.compiler.graph.graph.insert file ⟨content, modules⟩ with
  | mk changed graph =>
    cases changed with
    | false => exact .inl rfl
    | true =>
      simp only [if_true]
      cases hsave : GraphCache.save { s.compiler.graph with graph } s.world.disk with
      | error e => exact .inl rfl
      | ok disk =>
        simp only [GraphCache.save] at hsave
        split at hsave
        · cases hsave
        · rename_i g hg
          refine .inr ⟨g, graph.toText, hg, ?_⟩
          cases hwrite : s.world.disk.write g graph.toText with
          | error e => rw [hwrite] at hsave; cases hsave
          | ok disk' => rw [hwrite] at hsave; cases hsave; rfl

/-- Whether a path is not that of the file that the graphs of a configuration are kept in. -/
def ApartFromGraph (c : ConfigSet) (p : Path) : Prop :=
  ∀ g, (GraphCache.new c.cacheDirectory).file = some g → p.normalize ≠ g.normalize

/-- The graph's file has no dot in its name. -/
theorem apartFromGraph_of_isDotted {p : Path} (h : p.IsDotted) : ApartFromGraph c p := by
  intro g hg heq
  obtain ⟨d, -, rfl⟩ := Option.map_eq_some_iff.mp hg
  have hdotted := h.normalize
  rw [heq] at hdotted
  exact GraphCache.not_isDotted_join d hdotted

theorem picture_record (h : Settled c s) (file : Path) (content : Text) (modules : List Path)
    {q : Path} (hq : ApartFromGraph c q) :
    (s.record file content modules).world.disk.picture q = s.world.disk.picture q := by
  rcases record_disk s file content modules with hd | ⟨g, text, hg, hd⟩
  · rw [hd]
  · rw [h.graphFile] at hg
    have hne := hq g hg
    have ha := Disk.AgreesApart.write hd
    rw [Disk.picture, Disk.picture, Disk.read?, Disk.read?, ha.read_eq hne, ha.hasFile_eq hne]

end Session
end LanguageCompiler
end TestTransform

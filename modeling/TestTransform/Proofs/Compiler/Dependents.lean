/-
Recorded importers and the files that are loaded.

A test that the graph has an entry for was checked against the modules of that time.  When a
module is compiled, the importers that are not loaded are taken in and checked again; those
that are loaded are checked by whoever compiles them.  So none may be left out: after a module
has been compiled, every file that is recorded to import it is loaded.

That holds also if the module's output is only given again.  An output is remembered when all
importers are loaded (`Vigilant`), and every other step of a session leaves that as it is
(`Keeps`): files stay loaded, and entries are only recorded for loaded files.
-/
import TestTransform.Miniature.Samples
import TestTransform.Proofs.Compiler.Aside
import TestTransform.Proofs.Compiler.Reuse
import TestTransform.Proofs.Graph.Entries

namespace TestTransform
namespace LanguageCompiler
namespace Session

variable {s s' s'' t : Session} {p q file : Path}

/-! ## Tracked files and recorded importers -/

/-- Whether a file is in the table of the files that the compiler was shown. -/
def tracks (s : Session) (file : Path) : Bool := s.compiler.host.files.contains file

/-- What is recorded for a file. -/
def entryOf? (s : Session) (file : Path) : Option GraphEntry := s.compiler.graph.graph.get? file

/-- Whether an output is remembered for a file, of whatever state of the project. -/
def HasOutput (s : Session) (file : Path) : Prop :=
  ∃ r, s.compiler.host.files.get? file = some r ∧ r.output.isSome = true

/-- Whether all recorded importers of a module are loaded. -/
def ImportersLoaded (s : Session) (module : Path) : Prop :=
  ∀ q e, s.entryOf? q = some e → e.modules.any module.same = true → s.tracks q = true

/-- Whether the importers of all modules are loaded that an output is remembered for. -/
def Vigilant (s : Session) : Prop :=
  ∀ p : Path, p.normalize = p → s.HasOutput p → (s.isTest p).1 = false → s.ImportersLoaded p

theorem tracks_congr (h : p.same q = true) (s : Session) : s.tracks p = s.tracks q := by
  rw [tracks, tracks, FileTable.contains_eq_text?, FileTable.contains_eq_text?,
    FileTable.text?_congr h]

theorem hasOutput_of_reusable? {out : CompiledOutput} (h : s.reusable? p = some out) :
    s.HasOutput p := by
  obtain ⟨r, hr, ho⟩ := FileTable.output?_eq_some.mp h
  exact ⟨r, hr, by rw [ho]; rfl⟩

/-! ## What steps keep -/

/-- What every step of a session keeps: files stay loaded, entries are recorded for loaded
files only, and whether a file is a test does not change. -/
structure Keeps (s s' : Session) : Prop where
  tracked : ∀ q, s.tracks q = true → s'.tracks q = true
  recorded : ∀ q, s'.tracks q = false → s'.entryOf? q = s.entryOf? q
  test : ∀ p : Path, p.normalize = p → (s'.isTest p).1 = (s.isTest p).1

namespace Keeps

theorem refl (s : Session) : Keeps s s := ⟨fun _ h => h, fun _ _ => rfl, fun _ _ => rfl⟩

theorem trans (a : Keeps s s') (b : Keeps s' s'') : Keeps s s'' := by
  refine ⟨fun q h => b.tracked q (a.tracked q h), fun q h => ?_, fun p h => ?_⟩
  · have huntracked : s'.tracks q = false := by
      rw [Bool.eq_false_iff]
      intro htracked
      rw [b.tracked q htracked] at h
      cases h
    rw [b.recorded q h, a.recorded q huntracked]
  · rw [b.test p h, a.test p h]

/-- A file whose entry has changed is loaded. -/
theorem tracks_of_ne (k : Keeps s s') (h : s'.entryOf? q ≠ s.entryOf? q) : s'.tracks q = true := by
  cases ht : s'.tracks q with
  | true => rfl
  | false => exact absurd (k.recorded q ht) h

/-- New importers are loaded, and old ones stay so. -/
theorem importersLoaded (k : Keeps s s') (h : s.ImportersLoaded p) : s'.ImportersLoaded p := by
  intro q e he hmodule
  cases ht : s'.tracks q with
  | true => rfl
  | false =>
    rw [k.recorded q ht] at he
    rw [k.tracked q (h q e he hmodule)] at ht
    cases ht

end Keeps

/-- A step that remembers no output. -/
structure Quiet (s s' : Session) : Prop extends Keeps s s' where
  outputs : ∀ p, s'.HasOutput p → s.HasOutput p

namespace Quiet

theorem refl (s : Session) : Quiet s s := ⟨.refl s, fun _ h => h⟩

theorem trans (a : Quiet s s') (b : Quiet s' s'') : Quiet s s'' :=
  ⟨a.toKeeps.trans b.toKeeps, fun p h => a.outputs p (b.outputs p h)⟩

theorem vigilant (k : Quiet s s') (h : s.Vigilant) : s'.Vigilant := by
  intro p hp hout htest
  rw [k.test p hp] at htest
  exact k.importersLoaded (h p hp (k.outputs p hout) htest)

end Quiet

theorem Widens.quiet (w : Widens s s') : Quiet s s' := by
  refine ⟨⟨fun _ h => w.contains h, fun q _ => ?_, fun p _ => w.isTest_fst p⟩, ?_⟩
  · rw [entryOf?, w.graph, entryOf?]
  · rintro p ⟨r, hr, ho⟩
    cases hold : s.compiler.host.files.get? p with
    | some old =>
      have hkept := w.host.known p old hold
      rw [hr] at hkept
      cases hkept
      exact ⟨r, hold, ho⟩
    | none =>
      rw [(w.host.new p r hold hr).2] at ho
      cases ho

theorem update_tracks (s : Session) (file : Path) (text : Text) (q : Path) :
    (s.update file text).tracks q = (q.same file || s.tracks q) :=
  ServiceHost.contains_updateFile s.compiler.host file text q

theorem update_tracks_self (s : Session) (file : Path) (text : Text) :
    (s.update file text).tracks file = true := by
  rw [update_tracks, Path.same_refl, Bool.true_or]

theorem update_quiet (s : Session) (file : Path) (text : Text) :
    Quiet s (s.update file text) := by
  refine ⟨⟨fun q h => ?_, fun _ _ => rfl, fun _ _ => rfl⟩, ?_⟩
  · rw [update_tracks, h, Bool.or_true]
  · rintro p ⟨r, hr, ho⟩
    rw [update, setHost] at hr
    rcases ServiceHost.updateFile_cases s.compiler.host file text with ⟨-, hu⟩ | ⟨-, version, hu⟩
    · rw [hu] at hr
      exact ⟨r, hr, ho⟩
    · rw [hu, FileTable.get?_put] at hr
      split at hr
      · cases hr
        cases ho
      · exact ⟨r, hr, ho⟩

theorem setOptions_quiet (s : Session) (options : TransformOptions) :
    Quiet s (s.setOptions options) := by
  have hfiles : (s.setOptions options).compiler.host.files = s.compiler.host.files := by
    rw [Session.setOptions, setHost, ServiceHost.setOptions]
    split <;> rfl
  refine ⟨⟨fun q h => ?_, fun _ _ => rfl, fun _ _ => rfl⟩, fun p h => ?_⟩
  · rwa [tracks, hfiles]
  · rwa [HasOutput, hfiles] at h

theorem shown_quiet (s : Session) (content : Text) (file : Path) (options : TransformOptions) :
    Quiet s (s.shown content file options) :=
  (setOptions_quiet s options).trans (update_quiet _ _ _)

theorem shown_tracks (s : Session) (content : Text) (file : Path) (options : TransformOptions) :
    (s.shown content file options).tracks file.normalize = true :=
  update_tracks_self _ _ _

/-- Asking about one file changes no answer, neither to this question nor to another. -/
theorem isTest_quiet (s : Session) {file : Path} (hfile : file.normalize = file) :
    Quiet s (s.isTest file).2 := by
  refine ⟨⟨fun _ h => h, fun _ _ => rfl, fun p hp => ?_⟩, fun _ h => h⟩
  by_cases hcmp : Path.cmp p file = .eq
  · have heq : p = file := by
      rw [← hp, ← hfile]
      exact Path.normalize_congr (Path.cmp_eq_iff_same.mp hcmp)
    rw [heq]
    exact Memo.ask_again _ _ _
  · exact Memo.ask_of_ne _ _ hcmp

theorem record_quiet {file : Path} (hfile : s.tracks file = true) (content : Text)
    (modules : List Path) : Quiet s (s.record file content modules) := by
  refine ⟨⟨fun _ h => h, fun q hq => ?_, fun _ _ => rfl⟩, fun _ h => h⟩
  have hne : file.same q = false := by
    rw [Bool.eq_false_iff]
    intro hsame
    rw [tracks_congr hsame] at hfile
    have huntracked : s.tracks q = false := hq
    rw [hfile] at huntracked
    cases huntracked
  rw [entryOf?, record_graph, DependencyGraph.get?_insert_of_not_same hne, entryOf?]

theorem change_quiet (s : Session) (world : Surroundings) : Quiet s { s with world } :=
  ⟨⟨fun _ h => h, fun _ _ => rfl, fun _ _ => rfl⟩, fun _ h => h⟩

/-! ## Checking importers again -/

theorem recheck_quiet (files : List Path) (s : Session) : Quiet s (s.recheck files).2 := by
  induction files generalizing s with
  | nil => exact .refl s
  | cons f files ih =>
    rw [recheck]
    split
    · exact ih s
    · rename_i text _
      have hk := (update_quiet s f text).trans (typeCheck_widens _ f).quiet
      split <;> rename_i heq <;> rw [heq] at hk
      · exact hk.trans (ih _)
      · exact hk

theorem recheck_graph (files : List Path) (s : Session) :
    (s.recheck files).2.compiler.graph = s.compiler.graph := by
  induction files generalizing s with
  | nil => rfl
  | cons f files ih =>
    rw [recheck]
    split
    · exact ih s
    · rename_i text _
      have hg : ((s.update f text).typeCheck f).2.compiler.graph = s.compiler.graph :=
        (typeCheck_widens _ f).graph
      split <;> rename_i heq <;> rw [heq] at hg
      · rw [ih, hg]
      · exact hg

/-- A recorded file has a text to be checked with. -/
theorem recordedText?_isSome (h : (s.entryOf? file).isSome = true) :
    ∃ text, s.recordedText? file = some text := by
  obtain ⟨e, he⟩ := Option.isSome_iff_exists.mp h
  rw [entryOf?] at he
  rw [recordedText?, he]
  cases s.world.disk.read? file with
  | some text => exact ⟨text, rfl⟩
  | none => exact ⟨e.content, rfl⟩

/-- If none of the recorded files fails, all of them are loaded afterwards. -/
theorem recheck_tracks (files : List Path) (hrecorded : ∀ f ∈ files, (s.entryOf? f).isSome = true)
    (hok : (s.recheck files).1 = .ok ()) : ∀ f ∈ files, (s.recheck files).2.tracks f = true := by
  induction files generalizing s with
  | nil => exact fun _ hf => absurd hf List.not_mem_nil
  | cons f files ih =>
    obtain ⟨text, htext⟩ := recordedText?_isSome (hrecorded f List.mem_cons_self)
    have hw := typeCheck_widens (s.update f text) f
    have hloaded : ((s.update f text).typeCheck f).2.tracks f = true :=
      hw.quiet.tracked f (update_tracks_self s f text)
    rw [recheck, htext] at hok ⊢
    dsimp only at hok ⊢
    cases hc : (s.update f text).typeCheck f with
    | mk outcome t =>
      rw [hc] at hok hw hloaded
      cases outcome with
      | error e => cases hok
      | ok _ =>
        dsimp only at hok hloaded ⊢
        have hrest : ∀ g ∈ files, (t.entryOf? g).isSome = true := by
          intro g hg
          have hgraph : t.compiler.graph = s.compiler.graph := hw.graph
          rw [entryOf?, hgraph]
          exact hrecorded g (List.mem_cons_of_mem _ hg)
        intro g hg
        rcases List.mem_cons.mp hg with rfl | hg
        · exact (recheck_quiet files t).tracked g hloaded
        · exact ih hrest hok g hg

/-- The importers that are not loaded are recorded. -/
theorem entryOf?_of_unloaded (h : q ∈ s.unloadedDependents p) : (s.entryOf? q).isSome = true := by
  have hmem := List.mem_of_mem_filter h
  rw [GraphCache.dependentsOf, DependencyGraph.dependentsOf, List.mem_map] at hmem
  obtain ⟨entry, hentry, rfl⟩ := hmem
  exact Assoc.find?_isSome_of_mem (Path.cmp_eq_iff_same.mpr (Path.same_refl _))
    (List.mem_of_mem_filter hentry)

/-- An importer that is not loaded is among those that are checked again, in whatever
spelling the graph has for it. -/
theorem exists_unloaded {e : GraphEntry} (he : s.entryOf? q = some e)
    (hmodule : e.modules.any p.same = true) (hq : s.tracks q = false) :
    ∃ f ∈ s.unloadedDependents p, q.same f = true := by
  obtain ⟨f, hcmp, hmem⟩ := Assoc.mem_of_find? he
  have hsame := Path.cmp_eq_iff_same.mp hcmp
  refine ⟨f, List.mem_filter.mpr ⟨?_, ?_⟩, hsame⟩
  · exact List.mem_map.mpr ⟨(f, e), List.mem_filter.mpr ⟨hmem, hmodule⟩, rfl⟩
  · rw [tracks_congr hsame] at hq
    exact congrArg (!·) hq

theorem recheck_importersLoaded (h : (s.recheck (s.unloadedDependents p)).1 = .ok ()) :
    (s.recheck (s.unloadedDependents p)).2.ImportersLoaded p := by
  have htracked := recheck_tracks _ (fun f hf => entryOf?_of_unloaded hf) h
  intro q e he hmodule
  rw [entryOf?, recheck_graph] at he
  cases hq : s.tracks q with
  | true => exact (recheck_quiet _ s).tracked q hq
  | false =>
    obtain ⟨f, hf, hsame⟩ := exists_unloaded he hmodule hq
    rw [tracks_congr hsame]
    exact htracked f hf

/-! ## Calls -/

theorem followUp_quiet (hp : p.normalize = p) (htracked : s.tracks p = true) (content : Text) :
    Quiet s (s.followUp p content).2 := by
  have hasked := isTest_quiet s hp
  rw [followUp]
  rcases hanswer : s.isTest p with ⟨test, m⟩
  rw [hanswer] at hasked
  cases test with
  | true =>
    have hwalk := hasked.trans (collectModules_widens m p).quiet
    exact hwalk.trans (record_quiet (hwalk.tracked p htracked) content _)
  | false => exact hasked.trans (recheck_quiet _ m)

theorem followUp_importersLoaded (hok : (s.followUp p content).1 = .ok ())
    (htest : (s.isTest p).1 = false) : (s.followUp p content).2.ImportersLoaded p := by
  rw [followUp] at hok ⊢
  rcases hanswer : s.isTest p with ⟨test, m⟩
  rw [hanswer] at hok htest
  cases htest
  exact recheck_importersLoaded hok

/-- Remembering an output is as good as quiet once the importers are loaded. -/
theorem remember_keeps (s : Session) (p : Path) (out : CompiledOutput) :
    Keeps s (s.remember p out) := by
  have htracks : ∀ q, (s.remember p out).tracks q = s.tracks q := by
    intro q
    rw [tracks, remember, setHost, FileTable.contains_eq_text?, FileTable.text?_storeOutput,
      ← FileTable.contains_eq_text?, tracks]
  exact ⟨fun q h => by rwa [htracks], fun _ _ => rfl, fun _ _ => rfl⟩

theorem remember_vigilant (h : s.Vigilant) (hp : p.normalize = p)
    (hloaded : (s.isTest p).1 = false → s.ImportersLoaded p) (out : CompiledOutput) :
    (s.remember p out).Vigilant := by
  have hk := remember_keeps s p out
  intro q hq hout htest
  rw [hk.test q hq] at htest
  refine hk.importersLoaded ?_
  obtain ⟨r, hr, ho⟩ := hout
  rw [remember, setHost, FileTable.get?_storeOutput] at hr
  split at hr
  · rename_i hsame
    have heq : q = p := by
      rw [← hq, ← hp]
      exact Path.normalize_congr hsame
    subst heq
    exact hloaded htest
  · exact h q hq ⟨r, hr, ho⟩ htest

/-- What compiling a file comes to: the sessions stay vigilant, and if there is an output for
a module, its importers are loaded. -/
structure Attended (s s' : Session) (p : Path) (ok : Bool) : Prop where
  keeps : Keeps s s'
  vigilant : s'.Vigilant
  loaded : ok = true → (s.isTest p).1 = false → s'.ImportersLoaded p

theorem build_attended (h : s.Vigilant) (hp : p.normalize = p) (htracked : s.tracks p = true)
    (content : Text) :
    Attended s (s.build p content).2 p (s.build p content).1.isOk := by
  have hcheck := (ownCheck_widens s p).quiet
  rw [build_eq]
  rcases hc : s.ownCheck p with ⟨outcome, t⟩
  rw [hc] at hcheck
  cases outcome with
  | error e => exact ⟨hcheck.toKeeps, hcheck.vigilant h, fun hfalse => nomatch hfalse⟩
  | ok _ =>
    have hfollow := hcheck.trans (followUp_quiet hp (hcheck.tracked p htracked) content)
    have hloaded : (t.followUp p content).1 = .ok () → (t.isTest p).1 = false →
        (t.followUp p content).2.ImportersLoaded p := followUp_importersLoaded
    dsimp only at hfollow hloaded ⊢
    rcases hf : t.followUp p content with ⟨outcome, u⟩
    rw [hf] at hfollow hloaded
    cases outcome with
    | error e => exact ⟨hfollow.toKeeps, hfollow.vigilant h, fun hfalse => nomatch hfalse⟩
    | ok _ =>
      have hafter : (s.isTest p).1 = false → u.ImportersLoaded p := fun htest =>
        hloaded rfl (by rw [hcheck.test p hp, htest])
      dsimp only at hafter ⊢
      split
      · exact ⟨hfollow.toKeeps, hfollow.vigilant h, fun hfalse => nomatch hfalse⟩
      · rename_i out _
        have hk := remember_keeps u p out
        refine ⟨hfollow.toKeeps.trans hk, ?_, fun _ htest => hk.importersLoaded (hafter htest)⟩
        refine remember_vigilant (hfollow.vigilant h) hp (fun htest => hafter ?_) out
        rwa [hfollow.test p hp] at htest

/-- A compilation attends to its file from the moment that the text is shown. -/
theorem shown_attended (h : s.Vigilant) (content : Text) (file : Path)
    (options : TransformOptions) :
    Attended (s.shown content file options) (s.compile content file options).2 file.normalize
      (s.compile content file options).1.isOk := by
  have hp := Path.normalize_normalize file
  have hvigilant := (shown_quiet s content file options).vigilant h
  rw [compile_eq]
  split
  · rename_i out hreuse
    exact ⟨.refl _, hvigilant, fun _ => hvigilant _ hp (hasOutput_of_reusable? hreuse)⟩
  · exact build_attended hvigilant hp (shown_tracks s content file options) content

theorem compile_attended (h : s.Vigilant) (content : Text) (file : Path)
    (options : TransformOptions) :
    Attended s (s.compile content file options).2 file.normalize
      (s.compile content file options).1.isOk := by
  have hshown := shown_quiet s content file options
  have hattended := shown_attended h content file options
  refine ⟨hshown.toKeeps.trans hattended.keeps, hattended.vigilant, fun hok htest => ?_⟩
  rw [← hshown.test _ (Path.normalize_normalize file)] at htest
  exact hattended.loaded hok htest

theorem compile_tracks (h : s.Vigilant) (content : Text) (file : Path)
    (options : TransformOptions) :
    (s.compile content file options).2.tracks file.normalize = true :=
  (shown_attended h content file options).keeps.tracked _ (shown_tracks s content file options)

/-- Modules that are not known yet are looked for once the file is loaded. -/
theorem resolvedModules_unknown {content : Text}
    (h : s.compiler.graph.lookupValid? file.normalize content = none) :
    Quiet (s.update file.normalize content) (s.resolvedModules content file).2 := by
  have hp := Path.normalize_normalize file
  have hquiet := (collectModules_widens (s.update file.normalize content) file.normalize).quiet
  have htracked := hquiet.tracked _ (update_tracks_self s file.normalize content)
  rw [resolvedModules]
  dsimp only
  rw [h]
  dsimp only
  rcases hcollect : (s.update file.normalize content).collectModules file.normalize with
    ⟨modules, t⟩
  rw [hcollect] at hquiet htracked
  have hasked := isTest_quiet t hp
  dsimp only
  rcases hanswer : t.isTest file.normalize with ⟨test, m⟩
  rw [hanswer] at hasked
  replace hquiet := hquiet.trans hasked
  cases test with
  | true => exact hquiet.trans (record_quiet (hasked.tracked _ htracked) content modules)
  | false => exact hquiet

theorem resolvedModules_quiet (s : Session) (content : Text) (file : Path) :
    Quiet s (s.resolvedModules content file).2 := by
  cases h : s.compiler.graph.lookupValid? file.normalize content with
  | none => exact (update_quiet s file.normalize content).trans (resolvedModules_unknown h)
  | some modules =>
    rw [resolvedModules]
    dsimp only
    rw [h]
    exact .refl s

theorem resolvedModules_tracks {content : Text}
    (h : s.compiler.graph.lookupValid? file.normalize content = none) :
    (s.resolvedModules content file).2.tracks file.normalize = true :=
  (resolvedModules_unknown h).tracked _ (update_tracks_self s file.normalize content)

/-! ## Runs -/

/-- What happens to a compiler: it is called, and its surroundings change between calls. -/
inductive Call where
  | compile (content : Text) (file : Path) (options : TransformOptions)
  | resolvedModules (content : Text) (file : Path)
  | change (world : Surroundings)

def perform (s : Session) : Call → Session
  | .compile content file options => (s.compile content file options).2
  | .resolvedModules content file => (s.resolvedModules content file).2
  | .change world => { s with world }

def run (s : Session) (calls : List Call) : Session := calls.foldl perform s

/-- A session that begins with whatever graph the directory of a configuration holds. -/
def opened (view : FileView) (c : ConfigSet) (world : Surroundings) : Session :=
  ⟨create view c, world⟩

theorem opened_vigilant (view : FileView) (c : ConfigSet) (world : Surroundings) :
    (opened view c world).Vigilant := by
  rintro p - ⟨r, hr, -⟩
  cases hr

theorem perform_keeps (h : s.Vigilant) (call : Call) :
    Keeps s (s.perform call) ∧ (s.perform call).Vigilant := by
  cases call with
  | compile content file options =>
    have hattended := compile_attended h content file options
    exact ⟨hattended.keeps, hattended.vigilant⟩
  | resolvedModules content file =>
    have hquiet := resolvedModules_quiet s content file
    exact ⟨hquiet.toKeeps, hquiet.vigilant h⟩
  | change world => exact ⟨(change_quiet s world).toKeeps, (change_quiet s world).vigilant h⟩

theorem run_keeps (h : s.Vigilant) (calls : List Call) :
    Keeps s (s.run calls) ∧ (s.run calls).Vigilant := by
  induction calls generalizing s with
  | nil => exact ⟨.refl s, h⟩
  | cons call calls ih =>
    obtain ⟨hkeeps, hvigilant⟩ := perform_keeps h call
    obtain ⟨hrest, hafter⟩ := ih hvigilant
    exact ⟨hkeeps.trans hrest, hafter⟩

theorem run_append_cons (s : Session) (before after : List Call) (call : Call) :
    s.run (before ++ call :: after) = ((s.run before).perform call).run after := by
  rw [run, List.foldl_append]
  rfl

/-- A file that is loaded after a call is so after the calls that follow. -/
theorem run_tracks (h : s.Vigilant) (before after : List Call) {call : Call}
    (htracks : ((s.run before).perform call).tracks q = true) :
    (s.run (before ++ call :: after)).tracks q = true := by
  rw [run_append_cons]
  have hvigilant := (perform_keeps (run_keeps h before).2 call).2
  exact (run_keeps hvigilant after).1.tracked q htracks

/-- However a compiler is called, from whatever graph it begins: a file is loaded from the
call on that changes its entry, from the call on that compiles it, and from the call on that
looks for its modules anew; and when a file that is no test has been compiled, or its output
given again, all files are loaded that are recorded to import it. -/
theorem run_tracks_recorded (view : FileView) (c : ConfigSet) (world : Surroundings) :
    (∀ before call after q,
      (((opened view c world).run before).perform call).entryOf? q ≠
          ((opened view c world).run before).entryOf? q →
        ((opened view c world).run (before ++ call :: after)).tracks q = true) ∧
    (∀ before content file options after,
      ((opened view c world).run (before ++ .compile content file options :: after)).tracks
        file.normalize = true) ∧
    (∀ before content file after,
      ((opened view c world).run before).compiler.graph.lookupValid? file.normalize content =
          none →
        ((opened view c world).run (before ++ .resolvedModules content file :: after)).tracks
          file.normalize = true) ∧
    (∀ calls content file options out,
      (((opened view c world).run calls).compile content file options).1 = .ok out →
        (((opened view c world).run calls).isTest file.normalize).1 = false →
          ∀ q e, (((opened view c world).run calls).compile content file options).2.entryOf? q =
              some e → e.modules.any file.normalize.same = true →
            (((opened view c world).run calls).compile content file options).2.tracks q =
              true) := by
  have hopened := opened_vigilant view c world
  refine ⟨fun before call after q hne => ?_, fun before content file options after => ?_,
    fun before content file after hunknown => ?_,
    fun calls content file options out hok htest => ?_⟩
  · obtain ⟨hkeeps, -⟩ := perform_keeps (run_keeps hopened before).2 call
    exact run_tracks hopened before after (hkeeps.tracks_of_ne hne)
  · have htracks := compile_tracks (run_keeps hopened before).2 content file options
    exact run_tracks hopened before after htracks
  · exact run_tracks hopened before after (resolvedModules_tracks hunknown)
  · have hvigilant := (run_keeps hopened calls).2
    refine (compile_attended hvigilant content file options).loaded ?_ htest
    rw [hok]
    rfl

namespace Failing

def module : Path := Path.ofString "/project/dep.ts"

def test : Path := Path.ofString "/project/dep.test.ts"

/-- A project whose tests have `test` in their names. -/
def config : ConfigSet :=
  { sampleConfig with
    cacheDirectory := some (Path.ofString "/project/.cache")
    tests := ⟨[], [], [⟨"test", Pattern.literal "test"⟩]⟩ }

/-- A new session over some files. -/
def session (files : Store) : Session :=
  let world := { sampleWorld with disk.store := files }
  ⟨create world.view config, world⟩

def testText : Text :=
  "import \x7b value \x7d from \"./dep\";\nexport const text: string = value;\n"

/-- A module, and a graph in which a test of it is recorded. -/
def recorded : Store :=
  let graph : DependencyGraph := ⟨[(test, ⟨testText, [module]⟩)]⟩
  let file := ((GraphCache.new config.cacheDirectory).file).getD default
  ((({} : Store).add test testText).add module []).add file graph.toText

end Failing

open Miniature.Samples (dependencyStringValue)

/-- A test that was recorded in another run is loaded when its module is compiled, and is so
when the output is given again; a second one is loaded when it is recorded. -/
theorem run_tracks_recorded_again :
    (Failing.session Failing.recorded).tracks Failing.test = false ∧
      (((Failing.session Failing.recorded).run
        [.compile dependencyStringValue Failing.module {}]).compile dependencyStringValue
          Failing.module {}).2.tracks Failing.test = true ∧
      ((Failing.session Failing.recorded).run
        [.resolvedModules Failing.testText ⟨"/project/second.test.ts"⟩,
          .compile dependencyStringValue Failing.module {}]).tracks
            ⟨"/project/second.test.ts"⟩ = true := by
  obtain ⟨hchanged, -, -, himporters⟩ := run_tracks_recorded
    { sampleWorld with disk.store := Failing.recorded }.view Failing.config
    { sampleWorld with disk.store := Failing.recorded }
  refine ⟨by decide +kernel, ?_, ?_⟩
  · have hresult : (fun s : Session =>
        ((s.compile dependencyStringValue Failing.module {}).1.toOption.isSome,
          (s.compile dependencyStringValue Failing.module {}).2.entryOf? Failing.test,
          (s.isTest Failing.module.normalize).1)) ((Failing.session Failing.recorded).run
            [.compile dependencyStringValue Failing.module {}]) =
          (true, some ⟨Failing.testText, [Failing.module]⟩, false) := by
      decide +kernel
    obtain ⟨hok, hresult⟩ := Prod.mk.inj hresult
    obtain ⟨hentry, htest⟩ := Prod.mk.inj hresult
    rcases hcompile : (((Failing.session Failing.recorded).run
      [.compile dependencyStringValue Failing.module {}]).compile dependencyStringValue
        Failing.module {}).1 with e | out
    · rw [hcompile] at hok
      cases hok
    · exact himporters _ _ _ _ out hcompile htest _ _ hentry (by decide +kernel)
  · exact hchanged [] (.resolvedModules _ _) [_] _ (by decide +kernel)

end Session
end LanguageCompiler
end TestTransform

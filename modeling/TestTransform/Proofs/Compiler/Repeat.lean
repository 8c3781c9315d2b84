/-
Compiling the same once more.

A compilation that succeeds is remembered, so the next one gives the same output.  One that
fails remembers nothing; it is begun again, in a session that has taken files in meanwhile.
It fails again for the same reason, with three exceptions (`Lapses`).  The error of a recorded
importer is not found again, because the importer is loaded by then and not checked a second
time.  A name is no longer missed when the first call has come upon a file that declares it.
And if nothing was emitted, the file itself may have a mistake the second time, if the first
call has taken in the recorded text of an importer that is not on disk any more.
-/
import TestTransform.Miniature.Samples
import TestTransform.Proofs.Compiler.Checks
import TestTransform.Proofs.Compiler.Dependents

namespace TestTransform
namespace LanguageCompiler
namespace Session

open CompileError (verdict)
open Miniature (Misses SameValues declaredNames)
open Miniature.Samples (dependencyNumberValue dependencyStringValue)

variable {c : ConfigSet} {o : CompilerOptions} {p file : Path} {content : Text}
  {s s' s₀ t u : Session}

/-! ## What is there the second time -/

/-- What a compilation of a file does not touch: the configuration, how the engine is set up, and
what is remembered for the file. -/
structure Follows (p : Path) (s s' : Session) : Prop extends SameSetup s s' where
  record : ∀ r, s.compiler.host.files.get? p = some r → s'.compiler.host.files.get? p = some r
  version : s.compiler.host.projectVersion ≤ s'.compiler.host.projectVersion

namespace Follows

theorem refl (p : Path) (s : Session) : Follows p s s :=
  ⟨⟨rfl, Engine.Alike.refl _⟩, fun _ hr => hr, Nat.le_refl _⟩

theorem trans (a : Follows p s t) (b : Follows p t u) : Follows p s u :=
  ⟨a.toSameSetup.trans b.toSameSetup, fun r hr => b.record r (a.record r hr),
    Nat.le_trans a.version b.version⟩

end Follows

theorem Widens.follows (w : Widens s s') : Follows p s s' :=
  ⟨w.sameSetup, w.host.known p, w.host.version⟩

/-- Showing the text of another file. -/
theorem update_follows (hne : p.same file = false) (text : Text) :
    Follows p s (s.update file text) := by
  refine ⟨⟨rfl, Engine.Alike.refl _⟩, fun r hr => ?_, ?_⟩
  · rw [update, setHost]
    rcases ServiceHost.updateFile_cases s.compiler.host file text with ⟨-, hu⟩ | ⟨-, version, hu⟩
    · rwa [hu]
    · rw [hu, FileTable.get?_put, hne]
      exact hr
  · rw [update, setHost]
    rcases ServiceHost.updateFile_cases s.compiler.host file text with ⟨-, hu⟩ | ⟨-, version, hu⟩
    · rw [hu]
    · rw [hu]
      exact Nat.le_succ _

theorem recheck_follows (files : List Path) (hne : ∀ f ∈ files, p.same f = false) :
    Follows p s (s.recheck files).2 := by
  induction files generalizing s with
  | nil => exact .refl p s
  | cons f files ih =>
    have hrest : ∀ g ∈ files, p.same g = false := fun g hg => hne g (List.mem_cons_of_mem _ hg)
    rw [recheck]
    split
    · exact ih hrest
    · rename_i text _
      have hf := (update_follows (s := s) (hne f List.mem_cons_self) text).trans
        (typeCheck_widens _ f).follows
      split <;> rename_i heq <;> rw [heq] at hf
      · exact hf.trans (ih hrest)
      · exact hf

theorem followUp_follows (h : Working c o p content s) :
    Follows p s (s.followUp p content).2 := by
  obtain ⟨test, memo, ht⟩ := isTest_eq s p
  have hmemo : Working c o p content { s with compiler := { s.compiler with memo } } :=
    ⟨⟨h.config, h.graphFile, h.dated⟩, h.options, h.held⟩
  have hbegun : Follows p s { s with compiler := { s.compiler with memo } } :=
    ⟨⟨rfl, Engine.Alike.refl _⟩, fun _ hr => hr, Nat.le_refl _⟩
  rw [followUp, ht]
  cases test with
  | true =>
    have hw : Follows p s _ := hbegun.trans (collectModules_widens _ p).follows
    exact ⟨⟨hw.config, hw.engine⟩, hw.record, hw.version⟩
  | false => exact hbegun.trans (recheck_follows _ (not_same_of_unloaded hmemo.held p))

/-- What a session shows again after it has gone on: the files in `V` look as before, and no
declaration file has left the program. -/
structure Continues (V : Path → Prop) (s s' : Session) : Prop extends SameSetup s s' where
  picture : ∀ q : Path, q.normalize = q → V q → s'.picture q = s.picture q
  scripts : ∀ f : Path, f.isDeclaration = true → s.compiler.host.isScript f = true →
    s'.compiler.host.isScript f = true

variable {V : Path → Prop}

theorem Continues.trans (a : Continues V s t) (b : Continues V t u) : Continues V s u :=
  ⟨a.toSameSetup.trans b.toSameSetup, fun q hn hq => (b.picture q hn hq).trans (a.picture q hn hq),
    fun f hf hs => b.scripts f hf (a.scripts f hf hs)⟩

theorem Continues.mono {W : Path → Prop} (k : Continues V s s') (h : ∀ q, W q → V q) :
    Continues W s s' :=
  ⟨k.toSameSetup, fun q hn hq => k.picture q hn (h q hq), k.scripts⟩

/-- What an engine has to be shown alike: dotted files, and the file itself. -/
def Seen (file : Path) (p : Path) : Prop := p.IsDotted ∨ p = file

theorem Leaves.continues (l : Leaves Path.IsDotted s s') (hheld : s.held? p = some content) :
    Continues (Seen p) s s' := by
  refine ⟨⟨l.config, l.engine⟩, fun q hn hq => ?_, fun f _ => Miniature.isScript_grows l.host⟩
  rcases hq with hq | rfl
  · exact l.picture_eq hn hq
  · exact l.picture_eq_of_held hn hheld

theorem Widens.picture_eq (w : Widens s s') : s'.picture = s.picture := by
  have hview : s'.world.view = s.world.view := congrArg Disk.view w.disk
  rw [picture, picture, hview]
  exact w.host.picture_eq

theorem Widens.continues (w : Widens s s') : Continues V s s' :=
  ⟨w.sameSetup, fun q _ _ => congrFun w.picture_eq q, fun _ _ => Miniature.isScript_grows w.host⟩

/-- Showing a file as it is on disk, if it was not held at first, changes no picture. -/
theorem update_continues (k : Continues (fun _ => True) s₀ s) (hheld : s₀.held? file = none)
    {text : Text} (hread : s₀.world.disk.read? file = some text) :
    Continues (fun _ => True) s₀ (s.update file text) := by
  refine ⟨⟨k.config, k.engine⟩, fun q hn hq => ?_, fun f hf hs => ?_⟩
  · rw [← k.picture q hn hq]
    by_cases hsame : q.same file = true
    · -- The file itself looks as on disk before and after.
      have hnone : s₀.held? q = none := (FileTable.text?_congr hsame _).trans hheld
      have hondisk : s₀.world.disk.read? q = some text := (Disk.read?_congr hsame _).trans hread
      rw [k.picture q hn hq, picture_eq_of_not_held hn hnone, Disk.picture, hondisk,
        Disk.hasFile_of_read? hondisk]
      exact picture_eq_of_held hn (by rw [held?_update, if_pos hsame])
    · have hkept : (s.update file text).held? q = s.held? q := by rw [held?_update, if_neg hsame]
      cases hq' : s.held? q with
      | some t =>
        rw [picture_eq_of_held hn hq', picture_eq_of_held hn (hkept.trans hq')]
      | none =>
        rw [picture_eq_of_not_held hn hq', picture_eq_of_not_held hn (hkept.trans hq')]
        rfl
  · have hscript := k.scripts f hf hs
    rw [ServiceHost.isScript, Bool.or_eq_true] at hscript ⊢
    show (s.compiler.host.updateFile file text).2.files.contains f = true ∨ _
    rw [ServiceHost.contains_updateFile, Bool.or_eq_true]
    exact hscript.imp_left .inr

/-- So importers that are all on disk are checked again without a change of the picture. -/
theorem recheck_continues (files : List Path) (k : Continues (fun _ => True) s₀ s)
    (hd : s.world.disk = s₀.world.disk) (hunloaded : ∀ f ∈ files, s₀.held? f = none)
    (hread : ∀ c ∈ s.recheckChecks files, (s₀.world.disk.read? c.file).isSome = true) :
    Continues (fun _ => True) s₀ (s.recheck files).2 := by
  induction files generalizing s with
  | nil => exact k
  | cons f files ih =>
    have hrest : ∀ g ∈ files, s₀.held? g = none := fun g hg =>
      hunloaded g (List.mem_cons_of_mem _ hg)
    rw [recheckChecks] at hread
    rw [recheck]
    cases htext : s.recordedText? f with
    | none =>
      rw [htext] at hread
      exact ih k hd hrest hread
    | some text =>
      rw [htext] at hread
      obtain ⟨hfirst, hread⟩ := List.forall_mem_cons.mp hread
      dsimp only at hfirst hread ⊢
      obtain ⟨ondisk, hondisk⟩ := Option.isSome_iff_exists.mp hfirst
      have heq : ondisk = text := by
        rw [recordedText?, hd, hondisk] at htext
        exact Option.some.inj htext
      have hupdate := update_continues k (hunloaded f List.mem_cons_self) (heq ▸ hondisk)
      have hw := typeCheck_widens (s.update f text) f
      have hcheck := hupdate.trans hw.continues
      have hdisk : ((s.update f text).typeCheck f).2.world.disk = s₀.world.disk := hw.disk.trans hd
      cases hoc : (s.update f text).typeCheck f with
      | mk outcome t =>
        rw [hoc] at hcheck hdisk hread
        cases outcome with
        | error e => exact hcheck
        | ok _ => exact ih hcheck hdisk hrest hread

/-! ## The checks of the second time -/

/-- The file's own check comes to the same verdict, unless the first one missed a name that is
declared the second time. -/
theorem outcome_own_again (k : Continues (Seen p) s s') (hp : p.normalize = p)
    (hnames : s.world.engine.IsMiniature → ∀ name ∈ (Check.mk s' p).declared,
      ¬ Misses (s.own p).failures name) :
    verdict (s'.own p).outcome = verdict (s.own p).outcome := by
  have hw : Widens s (s.own p).session := ask_widens Engine.emitFile_keeps s p
  have hw' : Widens s' (s'.own p).session := ask_widens Engine.emitFile_keeps s' p
  have hfile : s'.picture p = s.picture p := k.picture p hp (.inr rfl)
  have hown : (s.own p).file = (s'.own p).file := rfl
  refine (Check.verdict_eq hown ?_ ?_ fun hm => ?_).symm
  · rw [hw.config, hw'.config, k.config]
  · exact hw.engine.symm.trans (k.engine.trans hw'.engine)
  have hm₀ : s.world.engine.IsMiniature := hw.engine.symm.isMiniature hm
  have hm' := k.engine.isMiniature hm₀
  refine ⟨⟨fun name hname => ?_, fun name hname hmisses => ?_⟩, ?_⟩
  · exact hnames hm₀ name ((mem_declared_own hm' p name).mp hname)
  · -- What is missed the second time was missed the first time.
    rw [Check.failures_eq (hw'.engine.isMiniature hm')] at hmisses
    have hread : ∀ q : Path, Seen p q.normalize → s'.compiler.host.read? s'.world.view q =
        s.compiler.host.read? s.world.view q := by
      intro q hq
      have hsame := k.picture q.normalize (Path.normalize_normalize q) hq
      exact (Miniature.text_picture (d := s'.world.disk) s'.compiler.host q).symm.trans
        ((congrArg Glimpse.text hsame).trans
          (Miniature.text_picture (d := s.world.disk) s.compiler.host q))
    refine Miniature.not_mem_of_misses (hmisses.mono fun d hd => List.mem_of_mem_filter hd) ?_
    refine (mem_declared_own hm' p name).mpr ?_
    exact Miniature.declaredNames_mono (hread p (.inr hp))
      (fun f hf => hread f (.inl (Path.isDotted_of_isDeclaration hf).normalize)) k.scripts
      ((mem_declared_own hm₀ p name).mp hname)
  · rw [hw.picture_eq, hw'.picture_eq]
    refine SameValues.of_pictures (fun q hn hq => ?_) ?_ _
    · exact (k.picture q hn (.inl hq)).symm
    · show s.picture p.normalize = s'.picture p.normalize
      rw [hp, hfile]

/-- After all importers that were held back have been checked again, none is left. -/
theorem unloadedDependents_recheck (h : (s.recheck (s.unloadedDependents p)).1 = .ok ()) :
    (s.recheck (s.unloadedDependents p)).2.unloadedDependents p = [] := by
  have htracked := recheck_tracks _ (fun f hf => entryOf?_of_unloaded hf) h
  have hquiet := recheck_quiet (s.unloadedDependents p) s
  rw [unloadedDependents, recheck_graph, List.filter_eq_nil_iff]
  intro f hf hnot
  have huntracked : (s.recheck (s.unloadedDependents p)).2.tracks f = false := by
    rwa [Bool.not_eq_true'] at hnot
  cases hs : s.tracks f with
  | true =>
    rw [hquiet.tracked f hs] at huntracked
    cases huntracked
  | false =>
    have hmem : f ∈ s.unloadedDependents p :=
      List.mem_filter.mpr ⟨hf, by rw [Bool.not_eq_true']; exact hs⟩
    rw [htracked f hmem] at huntracked
    cases huntracked

/-- Once no importer is held back, only the file itself is checked. -/
theorem checks_eq_own (h : (s.isTest p).1 = false → s.unloadedDependents p = []) :
    s.checks p = [s.own p] := by
  have hw := ownCheck_widens s p
  rw [checks]
  cases hcheck : s.ownCheck p with
  | mk outcome t =>
    rw [hcheck] at hw
    cases outcome with
    | error e => rfl
    | ok _ =>
      dsimp only
      have htest : (t.isTest p).1 = (s.isTest p).1 := hw.isTest_fst p
      obtain ⟨test, memo, hanswer⟩ := isTest_eq t p
      rw [hanswer] at htest ⊢
      cases test with
      | true => rfl
      | false =>
        have hnone : t.unloadedDependents p = [] := by
          rw [hw.unloadedDependents_eq, h htest.symm, List.filter_nil]
        show own s p :: recheckChecks _ (t.unloadedDependents p) = [own s p]
        rw [hnone]
        rfl

/-! ## The second time -/

/-- What may make the second of two calls differ from the first that failed. -/
inductive Lapse where
  | importer
  | name
  | text
  deriving DecidableEq

theorem Lapse.forall_iff {P : Lapse → Prop} : (∀ l, P l) ↔ P .importer ∧ P .name ∧ P .text :=
  ⟨fun h => ⟨h _, h _, h _⟩, fun ⟨hi, hn, ht⟩ l => by cases l <;> assumption⟩

/-- Whether it is at work where a compilation of a file is begun in one session and leaves another
one: an importer that is checked again fails; a name is missed that is declared afterwards; or an
importer is checked again that is not on disk, and the file itself fails afterwards. -/
def Lapses (s s' : Session) (p : Path) : Lapse → Prop
  | .importer => ∃ c ∈ s.checks p, c.file ≠ p ∧ c.outcome.isOk = false
  | .name => s.world.engine.IsMiniature ∧
      ∃ name ∈ (Check.mk s' p).declared, Misses (s.own p).failures name
  | .text => ∃ c ∈ s.checks p, c.file ≠ p ∧ s.world.disk.read? c.file = none ∧
      (s'.own p).outcome.isOk = false

instance (s s' : Session) (p : Path) : (l : Lapse) → Decidable (Lapses s s' p l)
  | .importer => inferInstanceAs (Decidable (∃ c ∈ s.checks p, c.file ≠ p ∧ c.outcome.isOk = false))
  | .name => inferInstanceAs (Decidable (s.world.engine.IsMiniature ∧
      ∃ name ∈ (Check.mk s' p).declared, Misses (s.own p).failures name))
  | .text => inferInstanceAs (Decidable (∃ c ∈ s.checks p, c.file ≠ p ∧
      s.world.disk.read? c.file = none ∧ (s'.own p).outcome.isOk = false))

/-- Of the checks of a compilation only the first is the file's own. -/
theorem file_ne_of_recheckChecks (files : List Path) (hne : ∀ f ∈ files, p.same f = false)
    {c : Check} (hc : c ∈ s.recheckChecks files) : c.file ≠ p := by
  induction files generalizing s with
  | nil => cases hc
  | cons f files ih =>
    have hrest : ∀ g ∈ files, p.same g = false := fun g hg => hne g (List.mem_cons_of_mem _ hg)
    rw [recheckChecks] at hc
    split at hc
    · exact ih hrest hc
    · rcases List.mem_cons.mp hc with rfl | hc
      · rintro rfl
        have hself := hne _ List.mem_cons_self
        rw [Path.same_refl] at hself
        cases hself
      · split at hc
        · exact ih hrest hc
        · cases hc

theorem eq_own_of_file (h : Working c o p content s) {check : Check} (hc : check ∈ s.checks p)
    (hfile : check.file = p) : check = s.own p := by
  have ht := h.widens (ownCheck_widens s p)
  rw [checks] at hc
  rcases List.mem_cons.mp hc with rfl | hc
  · rfl
  · cases hcheck : s.ownCheck p with
    | mk outcome t =>
      rw [hcheck] at hc ht
      cases outcome with
      | error e => cases hc
      | ok _ =>
        dsimp only at hc ht
        obtain ⟨test, memo, hanswer⟩ := isTest_eq t p
        rw [hanswer] at hc
        cases test with
        | true => cases hc
        | false =>
          have hne : ∀ f ∈ t.unloadedDependents p, p.same f = false := not_same_of_unloaded ht.held p
          exact absurd hfile (file_ne_of_recheckChecks _ hne hc)

/-- What is left by a compilation all of whose checks pass: no importer is held back, and if those
that were checked again are on disk, the files look as before. -/
structure Followed (s u : Session) (p : Path) : Prop where
  unloaded : (u.isTest p).1 = false → u.unloadedDependents p = []
  continues : (∀ c ∈ s.checks p, c.file ≠ p → (s.world.disk.read? c.file).isSome = true) →
    Continues (Seen p) s u

theorem followUp_followed (h : Working c o p content s) (hcheck : s.ownCheck p = (.ok (), t))
    (hpass : ∀ c ∈ s.checks p, c.outcome.isOk = true) : Followed s (t.followUp p content).2 p := by
  have hw := ownCheck_widens s p
  rw [hcheck] at hw
  have ht := h.widens hw
  obtain ⟨test, memo, hanswer⟩ := isTest_eq t p
  have hasked : (({ t with compiler := { t.compiler with memo } } : Session).isTest p).1 = test := by
    have hagain : ((t.isTest p).2.isTest p).1 = (t.isTest p).1 := Memo.ask_again _ _ _
    rwa [hanswer] at hagain
  -- The session in which it is remembered whether the file is a test.
  generalize hm : ({ t with compiler := { t.compiler with memo } } : Session) = m at hanswer hasked
  have hworking : Working c o p content m := by
    rw [← hm]
    exact ⟨⟨ht.config, ht.graphFile, ht.dated⟩, ht.options, ht.held⟩
  have hleaves : Leaves Path.IsDotted s m := by
    rw [← hm]
    exact ⟨hw.config, hw.engine, hw.host, hw.leaves.disk⟩
  have hdisk : m.world.disk = s.world.disk := by
    rw [← hm]
    exact hw.disk
  have hchecks : s.checks p = s.own p ::
      if test then [] else m.recheckChecks (m.unloadedDependents p) := by
    rw [checks, hcheck]
    dsimp only
    rw [hanswer]
    cases test <;> rfl
  rw [hchecks] at hpass
  rw [followUp, hanswer]
  cases test with
  | true =>
    have hcollect := collectModules_widens m p
    have hv := hworking.widens hcollect
    refine ⟨fun hfalse => ?_, fun _ => Leaves.continues ⟨?_, ?_, ?_, fun q hq => ?_⟩ h.held⟩
    · have htest : ((m.collectModules p).2.isTest p).1 = false := hfalse
      rw [hcollect.isTest_fst, hasked] at htest
      cases htest
    · exact hcollect.config.trans hleaves.config
    · exact hleaves.engine.trans hcollect.engine
    · have hview : m.world.view = s.world.view := congrArg Disk.view hdisk
      exact hleaves.host.trans (hview ▸ hcollect.host)
    · show ((m.collectModules p).2.record p content _).world.disk.picture q = _
      rw [picture_record hv.toSettled p content _ (apartFromGraph_of_isDotted hq), hcollect.disk,
        hleaves.disk q hq]
  | false =>
    have hrest : ∀ c ∈ m.recheckChecks (m.unloadedDependents p), c.outcome.isOk = true :=
      fun c hc => hpass c (List.mem_cons_of_mem _ hc)
    refine ⟨fun _ => unloadedDependents_recheck (recheck_of_passed _ hrest), fun hread => ?_⟩
    have hne := not_same_of_unloaded hworking.held p
    have hcontinues := recheck_continues (m.unloadedDependents p)
      ⟨⟨rfl, Engine.Alike.refl _⟩, fun _ _ _ => rfl, fun _ _ hs => hs⟩ rfl
      (fun f hf => held?_of_unloaded hf) fun c hc => by
        rw [hdisk]
        exact hread c (hchecks ▸ List.mem_cons_of_mem _ hc) (file_ne_of_recheckChecks _ hne hc)
    exact (hleaves.continues h.held).trans (hcontinues.mono fun _ _ => trivial)

/-- A compilation that fails after the file's own check leaves what follows that check. -/
theorem build_snd {e : CompileError} (hcheck : s.ownCheck p = (.ok (), t))
    (he : s.build p content = (.error e, s')) : s' = (t.followUp p content).2 := by
  rw [build_eq, hcheck] at he
  dsimp only at he
  cases hf : t.followUp p content with
  | mk outcome u =>
    rw [hf] at he
    cases outcome with
    | error e' =>
      cases he
      rfl
    | ok _ =>
      dsimp only at he
      split at he
      · cases he
        rfl
      · cases he

/-- Beginning once more where a compilation has ended that failed comes to the same verdict, if
no lapse is at work. -/
theorem build_again (h : Working c o p content s) (hp : p.normalize = p) {e : CompileError}
    (he : s.build p content = (.error e, s')) (hlapse : ∀ l, ¬ Lapses s s' p l) :
    verdict (s'.build p content).1 = verdict (.error e : Except CompileError CompiledOutput) := by
  have hafter : Working c o p content s' := by
    have hbuild := build_working h
    rwa [he] at hbuild
  have hnames : s.world.engine.IsMiniature → ∀ name ∈ (Check.mk s' p).declared,
      ¬ Misses (s.own p).failures name := fun hm name hname hmisses =>
    hlapse .name ⟨hm, name, hname, hmisses⟩
  cases hcheck : s.ownCheck p with
  | mk outcome t =>
    cases outcome with
    | error e' =>
      -- The file's own check fails, and fails again.
      have hown : (s.own p).outcome = .error e' := congrArg Prod.fst hcheck
      have hw := ownCheck_widens s p
      rw [build_eq, hcheck] at he
      cases he
      rw [hcheck] at hw
      have hagain := outcome_own_again (hw.continues (V := Seen p)) hp hnames
      rw [hown] at hagain
      cases hown' : (s'.own p).outcome with
      | ok _ =>
        rw [hown'] at hagain
        cases hagain
      | error e'' =>
        rw [hown'] at hagain
        rw [build_of_failed List.mem_cons_self hown']
        exact CompileError.verdict_error hagain
    | ok _ =>
      by_cases hpass : ∀ c ∈ s.checks p, c.outcome.isOk = true
      · -- Nothing was emitted, and nothing is emitted again.
        have hselect : (s.build p content).1 = _ := build_of_passed hpass
        rw [he] at hselect
        have hfollowed := followUp_followed h hcheck hpass
        have hw := ownCheck_widens s p
        rw [hcheck] at hw
        have hsetup := hw.follows.trans (followUp_follows (h.widens hw))
        rw [← build_snd hcheck he] at hfollowed hsetup
        have hemits : ∀ text, Miniature.emit text p s.compiler.host.options =
            Miniature.emit text p s'.compiler.host.options := fun text => by
          rw [h.options, hafter.options]
        have hemitted := emitted_eq hsetup.engine hemits hp h.held hafter.held
        have hown : (s'.own p).outcome.isOk = true := by
          by_contra hfails
          by_cases hread : ∀ c ∈ s.checks p, c.file ≠ p → (s.world.disk.read? c.file).isSome = true
          · -- The picture is the same, so the file's own check passes again.
            have hagain := outcome_own_again (hfollowed.continues hread) hp hnames
            rw [CompileError.isOk_of_verdict hagain] at hfails
            exact hfails (hpass _ List.mem_cons_self)
          · push Not at hread
            obtain ⟨c, hc, hfile, hnone⟩ := hread
            exact hlapse .text ⟨c, hc, hfile, Option.not_isSome_iff_eq_none.mp hnone,
              Bool.eq_false_iff.mpr hfails⟩
        rw [build_of_passed (s := s'), ← hemitted, ← hselect]
        intro c hc
        rw [checks_eq_own hfollowed.unloaded, List.mem_singleton] at hc
        rwa [hc]
      · -- An importer fails that is checked again.
        push Not at hpass
        obtain ⟨c, hc, hfails⟩ := hpass
        refine absurd ⟨c, hc, fun hfile => hfails ?_, Bool.eq_false_iff.mpr hfails⟩ (hlapse .importer)
        rw [eq_own_of_file h hc hfile]
        exact congrArg (Except.isOk ∘ Prod.fst) hcheck

/-- An output that was remembered for the state the session is in is at hand. -/
theorem reusable?_remember (h : Working c o p content s) (out : CompiledOutput) :
    (s.remember p out).reusable? p = some out := by
  obtain ⟨r, hr, -⟩ := Option.map_eq_some_iff.mp h.held
  have hget : (s.compiler.host.files.storeOutput p s.compiler.host.projectVersion out).get? p =
      some { r with output := some (s.compiler.host.projectVersion, out) } := by
    rw [FileTable.get?_storeOutput, if_pos (Path.same_refl p), hr]
    rfl
  exact FileTable.output?_eq_some.mpr ⟨_, hget, rfl⟩

theorem reusable?_of_build (h : Working c o p content s) {out : CompiledOutput}
    (hok : s.build p content = (.ok out, s')) : s'.reusable? p = some out := by
  have hcheck := h.widens (ownCheck_widens s p)
  rw [build_eq] at hok
  cases hc : s.ownCheck p with
  | mk outcome t =>
    rw [hc] at hok hcheck
    cases outcome with
    | error e => cases hok
    | ok _ =>
      have hfollow := followUp_working hcheck
      dsimp only at hok hfollow
      cases hf : t.followUp p content with
      | mk outcome u =>
        rw [hf] at hok hfollow
        cases outcome with
        | error e => cases hok
        | ok _ =>
          dsimp only at hok
          cases hsel : selectOutput p (s.ask Engine.emitFile p).1 with
          | error e =>
            rw [hsel] at hok
            cases hok
          | ok out' =>
            rw [hsel] at hok
            cases hok
            exact reusable?_remember hfollow out

/-- With nothing at hand before a compilation that fails, there is nothing after it. -/
theorem reusable?_of_follows (h : Working c o p content s) (f : Follows p s s')
    (hn : s.reusable? p = none) : s'.reusable? p = none := by
  obtain ⟨r, hr, -⟩ := Option.map_eq_some_iff.mp h.held
  have hr' := f.record r hr
  have hversion := f.version
  cases hx : s'.reusable? p with
  | none => rfl
  | some out =>
    obtain ⟨r', hget, ho⟩ := FileTable.output?_eq_some.mp hx
    rw [hr'] at hget
    cases hget
    -- The output goes with a state that the session was in already.
    have hle := h.dated p r _ out hr ho
    have heq : s'.compiler.host.projectVersion = s.compiler.host.projectVersion := by omega
    rw [heq] at ho
    have hsome : s.reusable? p = some out := FileTable.output?_eq_some.mpr ⟨r, hr, ho⟩
    rw [hn] at hsome
    cases hsome

theorem build_follows (h : Working c o p content s) {e : CompileError}
    (he : s.build p content = (.error e, s')) : Follows p s s' := by
  have hw := ownCheck_widens s p
  cases hcheck : s.ownCheck p with
  | mk outcome t =>
    rw [hcheck] at hw
    cases outcome with
    | error e' =>
      rw [build_eq, hcheck] at he
      cases he
      exact hw.follows
    | ok _ =>
      rw [build_snd hcheck he]
      exact hw.follows.trans (followUp_follows (h.widens hw))

/-- Compiling the same twice in a row comes to the same verdict: the same output, or an error of
the same kind with the same codes.  Only of a failure it may be another one the second time, if
one of the three lapses is at work. -/
theorem compile_again (h : Reached c s) (content : Text) (file : Path)
    (options : TransformOptions)
    (hlapse : ∀ e, (s.compile content file options).1 = .error e →
      ∀ l, ¬ Lapses (s.shown content file options) (s.compile content file options).2
        file.normalize l) :
    verdict ((s.compile content file options).2.compile content file options).1 =
      verdict (s.compile content file options).1 := by
  have hp := Path.normalize_normalize file
  have hshown := shown_working h.settled content file options
  have hafter := compile_working h.settled content file options
  have ho := ServiceHost.same_setOptions s.compiler.host (c.optionsFor options)
  rw [compile_eq (s.compile content file options).2, shown_again hafter ho]
  rw [compile_eq s] at hlapse ⊢
  cases hreuse : (s.shown content file options).reusable? file.normalize with
  | some out =>
    dsimp only
    rw [hreuse]
  | none =>
    rw [hreuse] at hlapse
    dsimp only at hlapse ⊢
    cases hbuild : (s.shown content file options).build file.normalize content with
    | mk outcome s' =>
      rw [hbuild] at hlapse
      cases outcome with
      | ok out =>
        dsimp only
        rw [reusable?_of_build hshown hbuild]
      | error e =>
        dsimp only
        rw [reusable?_of_follows hshown (build_follows hshown hbuild) hreuse]
        exact build_again hshown hp hbuild (hlapse e rfl)

/-! ## Failures that are not repeated -/

namespace Failing

def declarations : Store :=
  ({} : Store).add (Path.ofString "/project/globals.d.ts") "declare const __DEV__: boolean;\n"

/-- A text that looks into a file of declarations, and has a mistake of its own. -/
def mistaken : Text :=
  "import \x7b value \x7d from \"./globals\";\nexport const text: string = value;\n" ++
    Miniature.Samples.typeErrorAssignment

/-- A text that looks into the same file, and uses the global name that is declared there. -/
def undeclared : Text :=
  "import \x7b value \x7d from \"./globals\";\nexport const text: string = value;\n" ++
    ("export const development = __DEV__;\n" : Text)

/-- A new session over some files, in which nothing is emitted for the module. -/
def skipping (files : Store) : Session :=
  let engine : Miniature.Engine := { version := Miniature.Engine.defaultVersion }
  let world := { sampleWorld with
    disk.store := files
    engine := .miniature (engine.skipEmit module) }
  ⟨create world.view config, world⟩

/-- A project with a file of declarations. -/
def looking : Session := session declarations

/-- A project in which an importer is recorded, and nothing is emitted for the module. -/
def silent : Session := skipping recorded

/-- A test that is recorded to import the module, but is not on disk any more. -/
def gone : Store :=
  let graph : DependencyGraph := ⟨[(test, ⟨dependencyNumberValue, [module]⟩)]⟩
  let file := ((GraphCache.new config.cacheDirectory).file).getD default
  ({} : Store).add file graph.toText

/-- A text that takes the value of that test for a text. -/
def importing : Text :=
  "import \x7b value \x7d from \"./dep.test\";\nexport const text: string = value;\n"

end Failing

/-- A mistake in the file itself is found again, also if the first call has come upon a file of
declarations.  And if an importer passes that is checked again, but nothing is emitted, nothing is
emitted the second time. -/
theorem compile_again_mistaken :
    (Failing.looking.compile Failing.mistaken Failing.module {}).1.isOk = false ∧
      verdict ((Failing.looking.compile Failing.mistaken Failing.module {}).2.compile
        Failing.mistaken Failing.module {}).1 =
          verdict (Failing.looking.compile Failing.mistaken Failing.module {}).1 ∧
    (Failing.silent.compile dependencyStringValue Failing.module {}).1.isOk = false ∧
      verdict ((Failing.silent.compile dependencyStringValue Failing.module {}).2.compile
        dependencyStringValue Failing.module {}).1 =
          verdict (Failing.silent.compile dependencyStringValue Failing.module {}).1 := by
  obtain ⟨hmistaken, hlapse⟩ :
      (Failing.looking.compile Failing.mistaken Failing.module {}).1.isOk = false ∧
      ∀ l, ¬ Lapses (Failing.looking.shown Failing.mistaken Failing.module {})
        (Failing.looking.compile Failing.mistaken Failing.module {}).2
          Failing.module.normalize l := by
    rw [Lapse.forall_iff]
    decide +kernel
  obtain ⟨hsilent, hlapse'⟩ :
      (Failing.silent.compile dependencyStringValue Failing.module {}).1.isOk = false ∧
      ∀ l, ¬ Lapses (Failing.silent.shown dependencyStringValue Failing.module {})
        (Failing.silent.compile dependencyStringValue Failing.module {}).2
          Failing.module.normalize l := by
    rw [Lapse.forall_iff]
    decide +kernel
  exact ⟨hmistaken,
    compile_again (.create _ _) Failing.mistaken Failing.module {} fun _ _ => hlapse, hsilent,
    compile_again (.create _ _) dependencyStringValue Failing.module {} fun _ _ => hlapse'⟩

/-- None of the lapses can be left out.  The error of a recorded importer is not found again, as
the importer is loaded by then; a global name is no longer missed when the file that declares it
has been looked at; and a value has another type when the importer that it comes from has been
taken in with its recorded text. -/
theorem not_always_again : ¬ ∃ l : Lapse, ∀ c s content file options, Reached c s →
    (∀ l', l' ≠ l → ¬ Lapses (s.shown content file options) (s.compile content file options).2
      file.normalize l') →
    verdict ((s.compile content file options).2.compile content file options).1 =
      verdict (s.compile content file options).1 := by
  rintro ⟨l, h⟩
  -- A session in which only this lapse is at work would have to fail again alike.
  have hrefutes : ∀ (s : Session) (content : Text), Reached s.config s →
      ¬ ((∀ l', l' ≠ l → ¬ Lapses (s.shown content Failing.module {})
          (s.compile content Failing.module {}).2 Failing.module.normalize l') ∧
        verdict ((s.compile content Failing.module {}).2.compile content Failing.module {}).1 ≠
          verdict (s.compile content Failing.module {}).1) :=
    fun s content hs ⟨hothers, hne⟩ => hne (h _ s content Failing.module {} hs hothers)
  cases l with
  | importer =>
    refine hrefutes (Failing.session Failing.recorded) dependencyNumberValue (.create _ _) ?_
    rw [Lapse.forall_iff]
    decide +kernel
  | name =>
    refine hrefutes (Failing.session Failing.declarations) Failing.undeclared (.create _ _) ?_
    rw [Lapse.forall_iff]
    decide +kernel
  | text =>
    refine hrefutes (Failing.skipping Failing.gone) Failing.importing (.create _ _) ?_
    rw [Lapse.forall_iff]
    decide +kernel

end Session
end LanguageCompiler
end TestTransform

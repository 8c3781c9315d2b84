/-
The checks that a compilation makes.

Compiling a file checks the file itself and then, unless it is a test, the recorded importers
that are not loaded yet, up to the first check that fails.  Each is made in a session of its own,
since those before it have taken files in.  If one fails, so does the compilation, and for the
same reason; if all pass, what was emitted decides.  So two compilations of a file come to the
same verdict if the checks that both of them make agree and those that only one makes pass.
-/
import TestTransform.Proofs.Compiler.Reached
import TestTransform.Proofs.Miniature.Findings

namespace TestTransform

open CompileError (verdict)
open Miniature (Misses SameValues declaredNames foundIn)
open Miniature.Engine (searchLimit)

namespace ConfigSet

/-- Whether a diagnostic makes the check of a file fail. -/
def isFatal (c : ConfigSet) (file : Path) (d : Diagnostic) : Bool :=
  c.shouldReport file && c.diagnostics.throws && c.diagnostics.keeps d && d.isImportant

variable {c c' : ConfigSet} {file : Path}

theorem isFatal_congr (h : c.diagnostics = c'.diagnostics) (file : Path) :
    c.isFatal file = c'.isFatal file := by
  funext d
  rw [isFatal, isFatal, shouldReport, shouldReport, h]

/-- Where a diagnostic points to and what it says does not matter. -/
theorem isFatal_eq {d d' : Diagnostic} (hcategory : d.category = d'.category)
    (hcode : d.code = d'.code) (hfile : d.file = d'.file) : c.isFatal file d = c.isFatal file d' := by
  rw [isFatal, isFatal, DiagnosticsPolicy.keeps, DiagnosticsPolicy.keeps, Diagnostic.isImportant,
    Diagnostic.isImportant, hcategory, hcode, hfile]

end ConfigSet

namespace LanguageCompiler
namespace Session

/-- A session and the file that is checked in it. -/
structure Check where
  session : Session
  file : Path

namespace Check

def outcome (c : Check) : Except CompileError Unit := (c.session.typeCheck c.file).1

/-- The diagnostics that make the check fail. -/
def failures (c : Check) : List Diagnostic :=
  (c.session.ask Engine.check c.file).1.filter (c.session.config.isFatal c.file)

/-- The names that are declared where the file is checked. -/
def declared (c : Check) : List Text :=
  declaredNames c.session.world.view c.session.compiler.host c.file

/-- Whether neither of two checks misses a name that is declared for the other. -/
structure SameNames (c c' : Check) : Prop where
  left : ∀ name ∈ c'.declared, ¬ Misses c.failures name
  right : ∀ name ∈ c.declared, ¬ Misses c'.failures name

instance (c c' : Check) : Decidable (SameNames c c') :=
  decidable_of_iff ((∀ name ∈ c'.declared, ¬ Misses c.failures name) ∧
    ∀ name ∈ c.declared, ¬ Misses c'.failures name) ⟨fun h => ⟨h.1, h.2⟩, fun h => ⟨h.1, h.2⟩⟩

variable {c c' : Check}

/-- A check fails with the codes of the diagnostics that make it fail. -/
theorem verdict_outcome (c : Check) : verdict c.outcome =
    if c.failures.isEmpty then .ok () else .error (.diagnostics, c.failures.map (·.code)) := by
  rw [outcome, typeCheck, failures]
  cases hreport : c.session.config.shouldReport c.file with
  | false =>
    have hnone : ∀ d, c.session.config.isFatal c.file d = false := fun d => by
      rw [ConfigSet.isFatal, hreport, Bool.false_and, Bool.false_and, Bool.false_and]
    simp [hnone]
    rfl
  | true =>
    generalize hds : (c.session.ask Engine.check c.file).1 = ds
    have hconfig : (c.session.ask Engine.check c.file).2.config = c.session.config := rfl
    have hfails : ds.filter (c.session.config.isFatal c.file) =
        if c.session.config.diagnostics.throws then
          (c.session.config.diagnostics.filter ds).filter Diagnostic.isImportant
        else [] := by
      split
      · rename_i hthrows
        rw [DiagnosticsPolicy.filter, List.filter_filter]
        refine List.filter_congr fun d _ => ?_
        rw [ConfigSet.isFatal, hreport, hthrows, Bool.true_and, Bool.true_and, Bool.and_comm]
      · rename_i hthrows
        refine List.filter_eq_nil_iff.mpr fun d _ => ?_
        rw [ConfigSet.isFatal, Bool.eq_false_iff.mpr hthrows]
        simp
    rw [hfails]
    simp only [if_true, Surroundings.raise, hconfig, hds, ConfigSet.judge, hreport]
    generalize (c.session.config.diagnostics.filter ds).filter Diagnostic.isImportant = important
    cases c.session.config.diagnostics.throws with
    | false => rfl
    | true =>
      cases important with
      | nil => rfl
      | cons d important => rfl

/-- What makes a check fail is part of what is found in the picture that it begins with. -/
theorem failures_eq (hm : c.session.world.engine.IsMiniature) :
    c.failures = (foundIn c.session.picture searchLimit c.declared c.file).filter
      (c.session.config.isFatal c.file) := by
  have hfound := Engine.check_eq_foundIn c.session.world.disk (s := c.session.service) hm c.file
  rw [failures]
  exact congrArg (List.filter _) hfound

/-- Two checks of a file come to the same verdict if none misses a name that is declared for the
other, and the same of the file's values have another type than they should. -/
theorem verdict_eq (hfile : c.file = c'.file)
    (hd : c.session.config.diagnostics = c'.session.config.diagnostics)
    (he : Engine.Alike c.session.world.engine c'.session.world.engine)
    (hm : c.session.world.engine.IsMiniature → SameNames c c' ∧
      SameValues searchLimit c.session.picture c'.session.picture c.file) :
    verdict c.outcome = verdict c'.outcome := by
  have hfails := ConfigSet.isFatal_congr hd c.file
  have hcodes : c.failures.map (·.code) = c'.failures.map (·.code) := by
    by_cases hleft : c.session.world.engine.IsMiniature
    · obtain ⟨hnames, hvalues⟩ := hm hleft
      have hmissed := hnames.left
      have hmissed' := hnames.right
      rw [Check.failures_eq hleft] at hmissed ⊢
      rw [Check.failures_eq (he.isMiniature hleft), ← hfile, ← hfails] at hmissed' ⊢
      exact Miniature.codes_foundIn (fun _ _ => ConfigSet.isFatal_eq) hvalues
        (fun name hmisses hmem => hmissed name hmem hmisses)
        (fun name hmisses hmem => hmissed' name hmem hmisses)
    · have hfound := Engine.check_scripted c.session.world.view c'.session.world.view
        (show Engine.Alike c.session.service.engine c'.session.service.engine from he) hleft c.file
      rw [failures, failures, ← hfile, ← hfails]
      exact congrArg (fun ds : List Diagnostic =>
        (ds.filter (c.session.config.isFatal c.file)).map (·.code)) hfound
  have hempty : c.failures.isEmpty = c'.failures.isEmpty := by
    rw [← List.isEmpty_map (f := (·.code)), hcodes, List.isEmpty_map]
  rw [verdict_outcome, verdict_outcome, hcodes, hempty]

end Check

/-! ## The checks of a compilation -/

variable {s s' t : Session} {p : Path} {content : Text} {c c' : Check}

/-- The checks of recorded importers, up to the first that fails. -/
def recheckChecks (s : Session) : List Path → List Check
  | [] => []
  | file :: files =>
    match s.recordedText? file with
    | none => s.recheckChecks files
    | some text =>
      ⟨s.update file text, file⟩ ::
        match (s.update file text).typeCheck file with
        | (.ok (), s) => s.recheckChecks files
        | (.error _, _) => []

/-- The check of a file itself, which is made once it was emitted. -/
def own (s : Session) (file : Path) : Check := ⟨(s.ask Engine.emitFile file).2, file⟩

/-- The checks that compiling a file makes, up to the first that fails. -/
def checks (s : Session) (file : Path) : List Check :=
  s.own file ::
    match s.ownCheck file with
    | (.error _, _) => []
    | (.ok (), s) =>
      match s.isTest file with
      | (true, _) => []
      | (false, s) => s.recheckChecks (s.unloadedDependents file)

theorem recheck_of_passed (files : List Path)
    (h : ∀ c ∈ s.recheckChecks files, c.outcome.isOk = true) : (s.recheck files).1 = .ok () := by
  induction files generalizing s with
  | nil => rfl
  | cons f files ih =>
    rw [recheck]
    rw [recheckChecks] at h
    cases htext : s.recordedText? f with
    | none =>
      rw [htext] at h
      exact ih h
    | some text =>
      rw [htext] at h
      obtain ⟨hfirst, hrest⟩ := List.forall_mem_cons.mp h
      rw [Check.outcome] at hfirst
      dsimp only at hfirst ⊢
      cases hcheck : (s.update f text).typeCheck f with
      | mk outcome t =>
        rw [hcheck] at hfirst hrest
        cases outcome with
        | error e => cases hfirst
        | ok _ => exact ih hrest

theorem recheck_of_failed (files : List Path) {e : CompileError} (hc : c ∈ s.recheckChecks files)
    (he : c.outcome = .error e) : (s.recheck files).1 = .error e := by
  induction files generalizing s with
  | nil => cases hc
  | cons f files ih =>
    rw [recheck]
    rw [recheckChecks] at hc
    cases htext : s.recordedText? f with
    | none =>
      rw [htext] at hc
      exact ih hc
    | some text =>
      rw [htext] at hc
      dsimp only at hc ⊢
      cases hcheck : (s.update f text).typeCheck f with
      | mk outcome t =>
        rw [hcheck] at hc
        rcases List.mem_cons.mp hc with rfl | hc
        · rw [Check.outcome, hcheck] at he
          cases he
          rfl
        · cases outcome with
          | error e' => cases hc
          | ok _ => exact ih hc

/-- If all its checks pass, what was emitted decides a compilation. -/
theorem build_of_passed (h : ∀ c ∈ s.checks p, c.outcome.isOk = true) :
    (s.build p content).1 = selectOutput p (s.ask Engine.emitFile p).1 := by
  rw [checks] at h
  obtain ⟨hown, hrest⟩ := List.forall_mem_cons.mp h
  rw [build_eq]
  cases hcheck : s.ownCheck p with
  | mk outcome t =>
    rw [hcheck] at hrest
    have hown' : (s.ownCheck p).1.isOk = true := hown
    rw [hcheck] at hown'
    cases outcome with
    | error e => cases hown'
    | ok _ =>
      have hfollow : (t.followUp p content).1 = .ok () := by
        rw [followUp]
        dsimp only at hrest
        cases htest : t.isTest p with
        | mk test m =>
          rw [htest] at hrest
          cases test with
          | true => rfl
          | false => exact recheck_of_passed _ hrest
      dsimp only
      cases hu : t.followUp p content with
      | mk outcome u =>
        rw [hu] at hfollow
        cases hfollow
        dsimp only
        cases selectOutput p (s.ask Engine.emitFile p).1 <;> rfl

/-- If one fails, so does the compilation. -/
theorem build_of_failed {e : CompileError} (hc : c ∈ s.checks p) (he : c.outcome = .error e) :
    (s.build p content).1 = .error e := by
  rw [build_eq]
  cases hcheck : s.ownCheck p with
  | mk outcome t =>
    rw [checks, hcheck] at hc
    rcases List.mem_cons.mp hc with rfl | hc
    · have he' : (s.ownCheck p).1 = .error e := he
      rw [hcheck] at he'
      cases he'
      rfl
    · cases outcome with
      | error e' => cases hc
      | ok _ =>
        dsimp only at hc ⊢
        rw [followUp]
        cases htest : t.isTest p with
        | mk test m =>
          rw [htest] at hc
          cases test with
          | true => cases hc
          | false =>
            have hrecheck := recheck_of_failed _ hc he
            dsimp only at hrecheck ⊢
            cases hu : m.recheck (m.unloadedDependents p) with
            | mk outcome u =>
              rw [hu] at hrecheck
              cases hrecheck
              rfl


/-- Emitting a file adds no names to those that are declared for it. -/
theorem mem_declared_own (hm : s.world.engine.IsMiniature) (file : Path) (name : Text) :
    name ∈ (s.own file).declared ↔ name ∈ (Check.mk s file).declared := by
  obtain ⟨m, hm⟩ := hm.exists
  have hhost : (s.own file).session.compiler.host =
      (Miniature.Engine.emitFile s.world.view ⟨m, s.compiler.host, s.compiler.seen⟩ file).2.host := by
    rw [own, ask, Engine.emitFile, Engine.dispatch_miniature (s := s.service) hm]
    rfl
  rw [Check.declared, Check.declared, hhost, Miniature.Engine.emitFile_host]
  split
  · rfl
  · split
    · rfl
    · exact Miniature.mem_declaredNames_snapshot s.world.disk s.compiler.host file name

/-! ## Two compilations -/

/-- Whether a session has the configuration of another one and an engine that is set up alike. -/
structure SameSetup (s s' : Session) : Prop where
  config : s'.config = s.config
  engine : Engine.Alike s.world.engine s'.world.engine

theorem Widens.sameSetup (w : Widens s s') : SameSetup s s' := ⟨w.config, w.engine⟩

theorem SameSetup.trans {s'' : Session} (a : SameSetup s s') (b : SameSetup s' s'') :
    SameSetup s s'' :=
  ⟨b.config.trans a.config, a.engine.trans b.engine⟩

theorem recheckChecks_sameSetup (files : List Path) (hc : c ∈ s.recheckChecks files) :
    SameSetup s c.session := by
  induction files generalizing s with
  | nil => cases hc
  | cons f files ih =>
    rw [recheckChecks] at hc
    cases htext : s.recordedText? f with
    | none =>
      rw [htext] at hc
      exact ih hc
    | some text =>
      have hupdate : SameSetup s (s.update f text) := ⟨rfl, Engine.Alike.refl _⟩
      have hw := typeCheck_widens (s.update f text) f
      rw [htext] at hc
      dsimp only at hc
      cases hcheck : (s.update f text).typeCheck f with
      | mk outcome t =>
        rw [hcheck] at hc hw
        rcases List.mem_cons.mp hc with rfl | hc
        · exact hupdate
        · cases outcome with
          | error e => cases hc
          | ok _ => exact (hupdate.trans hw.sameSetup).trans (ih hc)

theorem checks_sameSetup (hc : c ∈ s.checks p) : SameSetup s c.session := by
  have hw := ownCheck_widens s p
  rw [checks] at hc
  rcases List.mem_cons.mp hc with rfl | hc
  · exact (ask_widens Engine.emitFile_keeps s p).sameSetup
  · cases hcheck : s.ownCheck p with
    | mk outcome t =>
      rw [hcheck] at hc hw
      cases outcome with
      | error e => cases hc
      | ok _ =>
        dsimp only at hc
        obtain ⟨test, memo, htest⟩ := isTest_eq t p
        rw [htest] at hc
        cases test with
        | true => cases hc
        | false =>
          have hmemo : SameSetup t { t with compiler := { t.compiler with memo } } :=
            ⟨rfl, Engine.Alike.refl _⟩
          exact (hw.sameSetup.trans hmemo).trans (recheckChecks_sameSetup _ hc)

/-- What is emitted depends on how the engine is set up, on the options, and on the text. -/
theorem emitted_eq (he : Engine.Alike s.world.engine s'.world.engine)
    (hemits : ∀ text, Miniature.emit text p s.compiler.host.options =
      Miniature.emit text p s'.compiler.host.options)
    (hp : p.normalize = p) (ht : s.held? p = some content) (ht' : s'.held? p = some content) :
    (s.ask Engine.emitFile p).1 = (s'.ask Engine.emitFile p).1 := by
  have hread : ∀ t : Session, t.held? p = some content →
      t.service.host.read? t.world.view p = some content :=
    fun t ht => ServiceHost.read?_of_text? (h := t.compiler.host) _ hp ht
  have hread := (hread s ht).trans (hread s' ht').symm
  exact Engine.emitFile_congr (show Engine.Alike s.service.engine s'.service.engine from he)
    hemits hread

/-- Two compilations come to the same verdict if the checks that both make agree, and those that
only one makes pass. -/
theorem verdict_build (ha : SameSetup s s')
    (hemitted : (s.ask Engine.emitFile p).1 = (s'.ask Engine.emitFile p).1)
    (hboth : ∀ c ∈ s.checks p, ∀ c' ∈ s'.checks p, c.file = c'.file →
      c.session.world.engine.IsMiniature → Check.SameNames c c' ∧
        SameValues searchLimit c.session.picture c'.session.picture c.file)
    (hleft : ∀ c ∈ s.checks p, (∀ c' ∈ s'.checks p, c.file ≠ c'.file) → c.outcome.isOk = true)
    (hright : ∀ c' ∈ s'.checks p, (∀ c ∈ s.checks p, c.file ≠ c'.file) → c'.outcome.isOk = true) :
    verdict (s.build p content).1 = verdict (s'.build p content).1 := by
  have hagree : ∀ c ∈ s.checks p, ∀ c' ∈ s'.checks p, c.file = c'.file →
      verdict c.outcome = verdict c'.outcome := by
    intro c hc c' hc' hfile
    have hs := checks_sameSetup hc
    have hs' := ha.trans (checks_sameSetup hc')
    exact Check.verdict_eq hfile (by rw [hs.config, hs'.config])
      (hs.engine.symm.trans hs'.engine) (hboth c hc c' hc' hfile)
  by_cases hpass : ∀ c ∈ s.checks p, c.outcome.isOk = true
  · -- All pass, and so do those of the other compilation.
    have hpass' : ∀ c' ∈ s'.checks p, c'.outcome.isOk = true := by
      intro c' hc'
      by_cases hcommon : ∃ c ∈ s.checks p, c.file = c'.file
      · obtain ⟨c, hc, hfile⟩ := hcommon
        rw [← CompileError.isOk_of_verdict (hagree c hc c' hc' hfile)]
        exact hpass c hc
      · exact hright c' hc' fun c hc hfile => hcommon ⟨c, hc, hfile⟩
    rw [build_of_passed hpass, build_of_passed hpass', hemitted]
  · -- One fails; the other compilation makes it as well, and fails with it.
    push Not at hpass
    obtain ⟨c, hc, hfails⟩ := hpass
    have hcommon : ∃ c' ∈ s'.checks p, c.file = c'.file := by
      by_contra hnone
      push Not at hnone
      exact hfails (hleft c hc hnone)
    obtain ⟨c', hc', hfile⟩ := hcommon
    have hverdict := hagree c hc c' hc' hfile
    cases hc₁ : c.outcome with
    | ok _ =>
      rw [hc₁] at hfails
      exact absurd rfl hfails
    | error e =>
      cases hc₂ : c'.outcome with
      | ok _ =>
        rw [hc₁, hc₂] at hverdict
        cases hverdict
      | error e' =>
        rw [hc₁, hc₂] at hverdict
        rw [build_of_failed hc hc₁, build_of_failed hc' hc₂]
        exact CompileError.verdict_error hverdict

end Session
end LanguageCompiler
end TestTransform

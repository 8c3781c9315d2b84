/-
Services that look alike.

An engine of either kind answers from what it was set up with and from what its host tells
it; what it counts and what it logs has no say.  So two services answer a question about a
file in the same way if their engines are set up alike and their hosts look alike, and they
do so afterwards as well.
-/
import TestTransform.Proofs.Miniature.Alike

namespace TestTransform

open ServiceHost (Grows snapshot_grows)

/-! ## The miniature compiler -/

namespace Miniature.Engine

variable {V W : Path → Prop} {d d' : Disk} {s s' : Service Engine}

theorem emitFile_skipped (view : FileView) (s : Service Engine) (file : Path) :
    (emitFile view s file).2.engine.skipped = s.engine.skipped := by
  have hsync := sync_skipped (count (fun w => { w with emits := w.emits + 1 }) s)
  rw [emitFile]
  split
  · exact hsync
  · split
    · exact hsync
    · simp only [count, Service.snapshot]
      split <;> rename_i hs <;> simp only [Prod.mk.injEq] at hs <;> rw [← hs.2] <;> exact hsync

/-- The same is emitted for a file with the same text, by engines that are set up alike. -/
theorem emitFile_congr {view view' : FileView} (hskips : s.engine.skipped = s'.engine.skipped)
    {file : Path} (hemits : ∀ text, emit text file s.host.options = emit text file s'.host.options)
    (hread : s.host.read? view file = s'.host.read? view' file) :
    (emitFile view s file).1 = (emitFile view' s' file).1 := by
  have hfiles : ∀ text, filesFor text file s.host.options = filesFor text file s'.host.options := by
    intro text
    rw [filesFor, filesFor, hemits]
  rw [emitFile_answer, emitFile_answer, skips, skips, hskips, hread]
  simp only [hfiles]

theorem emitFile_alike (hV : ∀ p : Path, p.IsDotted → V p)
    (hW : ∀ p : Path, W p → V p.normalize) (hskips : s.engine.skipped = s'.engine.skipped)
    (hemits : ∀ text p, emit text p s.host.options = emit text p s'.host.options)
    (a : ServiceHost.Alike V W d d' s.host s'.host) {file : Path} (hf : V file.normalize) :
    (emitFile d.view s file).1 = (emitFile d'.view s' file).1 ∧
      ServiceHost.Alike V W d d' (emitFile d.view s file).2.host
        (emitFile d'.view s' file).2.host := by
  refine ⟨emitFile_congr hskips (hemits · file) (a.read hf), ?_⟩
  rw [emitFile_host, emitFile_host, skips, skips, hskips]
  split
  · exact a
  · split
    · exact a
    · exact a.snapshot_host hV hW file

theorem checkSyntax_alike (hV : ∀ p : Path, p.IsDotted → V p)
    (hW : ∀ p : Path, W p → V p.normalize) (a : ServiceHost.Alike V W d d' s.host s'.host)
    {file : Path} (hf : V file.normalize) :
    (checkSyntax d.view s file).1 = (checkSyntax d'.view s' file).1 ∧
      ServiceHost.Alike V W d d' (checkSyntax d.view s file).2.host
        (checkSyntax d'.view s' file).2.host := by
  rw [checkSyntax_text, checkSyntax_text, a.read hf]
  refine ⟨rfl, ?_⟩
  simp only [checkSyntax, Service.snapshot, sync_host]
  exact a.snapshot_host hV hW file

theorem checkTypes_alike (hV : ∀ p : Path, p.IsDotted → V p)
    (hW : ∀ p : Path, W p → V p.normalize) (a : ServiceHost.Alike V W d d' s.host s'.host)
    {file : Path} (hf : V file.normalize) :
    (checkTypes d.view s file).1 = (checkTypes d'.view s' file).1 ∧
      ServiceHost.Alike V W d d' (checkTypes d.view s file).2.host
        (checkTypes d'.view s' file).2.host := by
  obtain ⟨hanswer, hhost⟩ := semanticDiagnostics_alike hV hW searchLimit a hf
  simp only [checkTypes, Service.ask, sync_host, count]
  exact ⟨congrArg Findings.diagnostics hanswer, hhost⟩

end Miniature.Engine

/-! ## The engine that answers from tables -/

namespace Scripted.Engine

variable {V W : Path → Prop} {d d' : Disk}

/-- The tables of an engine, without its log. -/
def tables (e : Engine) : Engine := { e with log := [] }

theorem probes_tables (view : FileView) (probes : List Path) (s : Service Engine) :
    tables (probes.foldl (probe view) s).engine = tables s.engine := by
  induction probes generalizing s with
  | nil => rfl
  | cons p probes ih => exact ih (probe view s p)

theorem probes_grows (view : FileView) (probes : List Path) (s : Service Engine) :
    Grows view s.host (probes.foldl (probe view) s).host := by
  induction probes generalizing s with
  | nil => exact Grows.refl view s.host
  | cons p probes ih => exact (snapshot_grows s.host view p).trans (ih (probe view s p))

theorem probes_alike (hV : ∀ p : Path, p.IsDotted → V p) (hW : ∀ p : Path, W p → V p.normalize)
    (probes : List Path) {s s' : Service Engine}
    (a : ServiceHost.Alike V W d d' s.host s'.host) :
    ServiceHost.Alike V W d d' (probes.foldl (probe d.view) s).host
      (probes.foldl (probe d'.view) s').host := by
  induction probes generalizing s s' with
  | nil => exact a
  | cons p probes ih => exact ih (a.snapshot_host hV hW p)

end Scripted.Engine

/-! ## Whichever engine there is -/

namespace Engine

/-- Whether two engines are of one kind and set up alike. -/
def Alike : Engine → Engine → Prop
  | miniature e, miniature e' => e.skipped = e'.skipped
  | scripted e, scripted e' => e.tables = e'.tables
  | _, _ => False

theorem Alike.refl (e : Engine) : Alike e e := by
  cases e with
  | miniature e => rfl
  | scripted e => rfl

theorem Alike.symm {e e' : Engine} (h : Alike e e') : Alike e' e := by
  cases e <;> cases e'
  · exact Eq.symm (show _ = _ from h)
  · exact h
  · exact h
  · exact Eq.symm (show _ = _ from h)

theorem Alike.trans {e e' e'' : Engine} (h : Alike e e') (h' : Alike e' e'') : Alike e e'' := by
  cases e <;> cases e' <;> cases e''
  · exact Eq.trans (show _ = _ from h) h'
  · exact h'
  · exact h.elim
  · exact h.elim
  · exact h.elim
  · exact h.elim
  · exact h'
  · exact Eq.trans (show _ = _ from h) h'

/-- Engines that are set up alike emit the same for a file with the same text. -/
theorem emitFile_congr {view view' : FileView} {s s' : Service Engine}
    (he : Alike s.engine s'.engine) {file : Path}
    (hemits : ∀ text, Miniature.emit text file s.host.options =
      Miniature.emit text file s'.host.options)
    (hread : s.host.read? view file = s'.host.read? view' file) :
    (emitFile view s file).1 = (emitFile view' s' file).1 := by
  obtain ⟨e, host, seen⟩ := s
  obtain ⟨e', host', seen'⟩ := s'
  cases e with
  | miniature m =>
    cases e' with
    | miniature m' =>
      show (Miniature.Engine.emitFile view ⟨m, host, seen⟩ file).1 =
        (Miniature.Engine.emitFile view' ⟨m', host', seen'⟩ file).1
      refine Miniature.Engine.emitFile_congr ?_ hemits hread
      exact he
    | scripted e' => exact he.elim
  | scripted e =>
    cases e' with
    | miniature m' => exact he.elim
    | scripted e' =>
      have htable : e.emits = e'.emits := (congrArg Scripted.Engine.emits he :)
      show Scripted.Engine.look e.emits file = Scripted.Engine.look e'.emits file
      rw [htable]

/-- A question that only takes files in, and leaves the engine set up as it was. -/
def Keeps {α : Type} (question : FileView → Service Engine → Path → α × Service Engine) : Prop :=
  ∀ view s file, Alike s.engine (question view s file).2.engine ∧
    Grows view s.host (question view s file).2.host

theorem keeps_dispatch {α : Type}
    {onMiniature : FileView → Service Miniature.Engine → Path → α × Service Miniature.Engine}
    (onScripted : FileView → Service Scripted.Engine → Path → α × Service Scripted.Engine)
    (hm : ∀ view s file, (onMiniature view s file).2.engine.skipped = s.engine.skipped ∧
      Grows view s.host (onMiniature view s file).2.host)
    (hs : ∀ view s file, (onScripted view s file).2.engine.tables = s.engine.tables ∧
      Grows view s.host (onScripted view s file).2.host) :
    Keeps fun view s file => dispatch s (onMiniature view · file) (onScripted view · file) := by
  intro view s file
  obtain ⟨e, host, seen⟩ := s
  cases e with
  | miniature e =>
    obtain ⟨hskips, hg⟩ := hm view { engine := e, host, seen } file
    exact ⟨hskips.symm, hg⟩
  | scripted e =>
    obtain ⟨htables, hg⟩ := hs view { engine := e, host, seen } file
    exact ⟨htables.symm, hg⟩

theorem emitFile_keeps : Keeps emitFile := by
  refine keeps_dispatch _ (fun view s file => ?_) (fun view s file => ?_)
  · exact ⟨Miniature.Engine.emitFile_skipped view s file,
      Miniature.Engine.emitFile_grows view s file⟩
  · exact ⟨Scripted.Engine.probes_tables view _ (Scripted.Engine.note .emit s file),
      Scripted.Engine.probes_grows view _ (Scripted.Engine.note .emit s file)⟩

theorem checkSyntax_keeps : Keeps checkSyntax := by
  refine keeps_dispatch (fun _ => Scripted.Engine.checkSyntax)
    (fun view s file => ?_) (fun view s file => ?_)
  · refine ⟨?_, Miniature.Engine.checkSyntax_grows view s file⟩
    simp only [Miniature.Engine.checkSyntax, Service.snapshot, Miniature.Engine.sync_skipped]
  · exact ⟨rfl, Grows.refl view s.host⟩

theorem checkTypes_keeps : Keeps checkTypes := by
  refine keeps_dispatch (fun _ => Scripted.Engine.checkTypes)
    (fun view s file => ?_) (fun view s file => ?_)
  · refine ⟨?_, Miniature.Engine.checkTypes_grows view s file⟩
    simp only [Miniature.Engine.checkTypes, Service.ask, Miniature.Engine.sync_skipped,
      Miniature.Engine.count]
  · exact ⟨rfl, Grows.refl view s.host⟩

theorem modulesOf_keeps : Keeps modulesOf := by
  refine keeps_dispatch (fun _ => Scripted.Engine.modulesOf)
    (fun view s file => ?_) (fun view s file => ?_)
  · refine ⟨?_, Miniature.Engine.modulesOf_grows view s file⟩
    simp only [Miniature.Engine.modulesOf, Service.ask, Miniature.Engine.sync_skipped]
  · exact ⟨rfl, Grows.refl view s.host⟩

theorem check_keeps : Keeps check := by
  intro view s file
  obtain ⟨he₁, hg₁⟩ := checkSyntax_keeps view s file
  obtain ⟨he₂, hg₂⟩ := checkTypes_keeps view (checkSyntax view s file).2 file
  exact ⟨he₁.trans he₂, hg₁.trans hg₂⟩

end Engine

/-! ## Two services -/

namespace Service

structure Alike (V W : Path → Prop) (d d' : Disk) (s s' : Service Engine) : Prop where
  engine : Engine.Alike s.engine s'.engine
  host : ServiceHost.Alike V W d d' s.host s'.host
  emits : ∀ text p,
    Miniature.emit text p s.host.options = Miniature.emit text p s'.host.options

variable {V W : Path → Prop} {d d' : Disk} {s s' : Service Engine}

/-- Whether two services answer a question in the same way and look alike afterwards. -/
def AnswerAlike (V W : Path → Prop) (d d' : Disk) {α : Type}
    (question : FileView → Service Engine → Path → α × Service Engine) (s s' : Service Engine)
    (file : Path) : Prop :=
  (question d.view s file).1 = (question d'.view s' file).1 ∧
    Alike V W d d' (question d.view s file).2 (question d'.view s' file).2

/-- It is enough that engines of the same kind answer in the same way, and that the hosts
look alike afterwards. -/
theorem dispatch_alike {α : Type}
    {onMiniature : FileView → Service Miniature.Engine → Path → α × Service Miniature.Engine}
    {onScripted : FileView → Service Scripted.Engine → Path → α × Service Scripted.Engine}
    (hkeeps : Engine.Keeps fun view s file =>
      Engine.dispatch s (onMiniature view · file) (onScripted view · file))
    {file : Path}
    (hm : ∀ s s', s.engine.skipped = s'.engine.skipped →
      (∀ text p, Miniature.emit text p s.host.options = Miniature.emit text p s'.host.options) →
      ServiceHost.Alike V W d d' s.host s'.host →
      (onMiniature d.view s file).1 = (onMiniature d'.view s' file).1 ∧
        ServiceHost.Alike V W d d' (onMiniature d.view s file).2.host
          (onMiniature d'.view s' file).2.host)
    (hs : ∀ s s', s.engine.tables = s'.engine.tables →
      ServiceHost.Alike V W d d' s.host s'.host →
      (onScripted d.view s file).1 = (onScripted d'.view s' file).1 ∧
        ServiceHost.Alike V W d d' (onScripted d.view s file).2.host
          (onScripted d'.view s' file).2.host)
    (a : Alike V W d d' s s') :
    AnswerAlike V W d d' (fun view s file =>
      Engine.dispatch s (onMiniature view · file) (onScripted view · file)) s s' file := by
  obtain ⟨he, hg⟩ := hkeeps d.view s file
  obtain ⟨he', hg'⟩ := hkeeps d'.view s' file
  have hemits := a.emits
  rw [← hg.options, ← hg'.options] at hemits
  have hengine := he.symm.trans (a.engine.trans he')
  obtain ⟨ha, hh, hemits₀⟩ := a
  obtain ⟨e, host, seen⟩ := s
  obtain ⟨e', host', seen'⟩ := s'
  cases e with
  | miniature e =>
    cases e' with
    | miniature e' =>
      obtain ⟨hanswer, hhost⟩ := hm ⟨e, host, seen⟩ ⟨e', host', seen'⟩ ha hemits₀ hh
      exact ⟨hanswer, hengine, hhost, hemits⟩
    | scripted _ => exact ha.elim
  | scripted e =>
    cases e' with
    | miniature _ => exact ha.elim
    | scripted e' =>
      obtain ⟨hanswer, hhost⟩ := hs ⟨e, host, seen⟩ ⟨e', host', seen'⟩ ha hh
      exact ⟨hanswer, hengine, hhost, hemits⟩

section Questions

variable (hV : ∀ p : Path, p.IsDotted → V p) (hW : ∀ p : Path, W p → V p.normalize)
  (a : Alike V W d d' s s') {file : Path} (hf : V file.normalize)
include hV hW a hf

theorem emitFile_alike : AnswerAlike V W d d' Engine.emitFile s s' file := by
  refine dispatch_alike Engine.emitFile_keeps
    (fun _ _ he hemits hh => Miniature.Engine.emitFile_alike hV hW he hemits hh hf)
    (fun t t' he hh => ?_) a
  have hemitted : t.engine.emits = t'.engine.emits :=
    (congrArg Scripted.Engine.emits he :)
  have hprobes : t.engine.probes = t'.engine.probes :=
    (congrArg Scripted.Engine.probes he :)
  constructor
  · show Scripted.Engine.look t.engine.emits file = Scripted.Engine.look t'.engine.emits file
    rw [hemitted]
  · show ServiceHost.Alike V W d d' (t.engine.probes.foldl (Scripted.Engine.probe d.view) _).host
      (t'.engine.probes.foldl (Scripted.Engine.probe d'.view) _).host
    rw [hprobes]
    exact Scripted.Engine.probes_alike hV hW _ hh

theorem checkSyntax_alike : AnswerAlike V W d d' Engine.checkSyntax s s' file := by
  refine dispatch_alike Engine.checkSyntax_keeps
    (fun _ _ _ _ hh => Miniature.Engine.checkSyntax_alike hV hW hh hf)
    (fun t t' he hh => ⟨?_, hh⟩) a
  have htable : t.engine.syntactic = t'.engine.syntactic :=
    (congrArg Scripted.Engine.syntactic he :)
  show Scripted.Engine.look t.engine.syntactic file = Scripted.Engine.look t'.engine.syntactic file
  rw [htable]

theorem checkTypes_alike : AnswerAlike V W d d' Engine.checkTypes s s' file := by
  refine dispatch_alike Engine.checkTypes_keeps
    (fun _ _ _ _ hh => Miniature.Engine.checkTypes_alike hV hW hh hf)
    (fun t t' he hh => ⟨?_, hh⟩) a
  have htable : t.engine.semantic = t'.engine.semantic :=
    (congrArg Scripted.Engine.semantic he :)
  show Scripted.Engine.look t.engine.semantic file = Scripted.Engine.look t'.engine.semantic file
  rw [htable]

/-- The diagnostics of a file are the same. -/
theorem check_alike : AnswerAlike V W d d' Engine.check s s' file := by
  obtain ⟨hsyntactic, ha⟩ := checkSyntax_alike hV hW a hf
  obtain ⟨htypes, ha'⟩ := checkTypes_alike hV hW ha hf
  exact ⟨congrArg₂ (· ++ ·) hsyntactic htypes, ha'⟩

end Questions
end Service
end TestTransform

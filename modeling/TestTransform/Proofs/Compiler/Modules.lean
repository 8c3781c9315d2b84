/-
The modules that the type-checking compiler finds for a file.

What a file imports depends on the project only through a picture of it: which files there
are, and their texts.  A walk takes files in while it goes on, but the picture that the
compiler has stays the same all the time: a text that is held is not replaced, and a file
that is taken in was there before.  So the walk is one over imports that are fixed when it
begins, and its bound is one on the files in the picture.
-/
import TestTransform.Proofs.Compiler.Session
import TestTransform.Proofs.Files.Store

namespace TestTransform

/-! ## Imports of a text -/

namespace Miniature

/-- The modules that a text imports, each once, in the order in which they are named. -/
def importedModules (hasFile : Path → Bool) (file : Path) (text : Text) : List Path :=
  (((Text.lines text).flatMap specifiers).filterMap (resolveModule hasFile file)).foldl
    (fun seen p => if seen.any p.same then seen else seen ++ [p]) []

theorem mem_of_mem_foldl_same {l seen : List Path} {p : Path}
    (h : p ∈ l.foldl (fun seen p => if seen.any p.same then seen else seen ++ [p]) seen) :
    p ∈ seen ∨ p ∈ l := by
  induction l generalizing seen with
  | nil => exact .inl h
  | cons q l ih =>
    rw [List.foldl_cons] at h
    rcases ih h with h | h
    · split at h
      · exact .inl h
      · rcases List.mem_append.mp h with h | h
        · exact .inl h
        · rw [List.mem_singleton.mp h]
          exact .inr List.mem_cons_self
    · exact .inr (List.mem_cons_of_mem _ h)

/-- Each import is the file that some specifier stands for. -/
theorem resolve_of_mem_importedModules {hasFile : Path → Bool} {file m : Path} {text : Text}
    (h : m ∈ importedModules hasFile file text) :
    ∃ specifier, resolveModule hasFile file specifier = some m := by
  rcases mem_of_mem_foldl_same h with h | h
  · simp at h
  · obtain ⟨specifier, -, hm⟩ := List.mem_filterMap.mp h
    exact ⟨specifier, hm⟩

/-- Only files that exist are imported. -/
theorem hasFile_of_mem_importedModules {hasFile : Path → Bool} {file m : Path} {text : Text}
    (h : m ∈ importedModules hasFile file text) : hasFile m = true := by
  obtain ⟨specifier, hm⟩ := resolve_of_mem_importedModules h
  exact List.find?_some hm

theorem resolvedModules_eq (view : FileView) (h : ServiceHost) (file : Path) :
    (resolvedModules view h file).1 =
      match h.read? view file with
      | none => []
      | some text => importedModules ((h.snapshot view file).2.hasFile view) file text := by
  rw [← ServiceHost.snapshot_text, resolvedModules]
  cases h.snapshot view file with
  | mk text h => cases text <;> rfl

end Miniature

/-! ## Pictures of a project -/

/-- What is seen of one file. -/
structure Glimpse where
  text : Option Text
  isFile : Bool
  deriving DecidableEq, Repr, Inhabited

/-- A project as somebody sees it, for paths in normal form. -/
abbrev Picture := Path → Glimpse

namespace Picture

/-- The modules that a file imports. -/
def imports (pic : Picture) (file : Path) : List Path :=
  match (pic file.normalize).text with
  | none => []
  | some text => Miniature.importedModules (fun p => (pic p.normalize).isFile) file text

theorem isFile_of_imports {pic : Picture} {p q : Path} (h : Closure.Imports pic.imports p q) :
    (pic q).isFile = true := by
  obtain ⟨m, hm, rfl, -⟩ := h
  rw [imports] at hm
  split at hm
  · simp at hm
  · exact Miniature.hasFile_of_mem_importedModules hm

/-- Modules are bounded by what bounds the files. -/
theorem isBound_imports {pic : Picture} {n : Nat}
    (h : ∀ l : List Path, l.Nodup → (∀ q ∈ l, q.normalize = q ∧ (pic q).isFile = true) →
      l.length ≤ n) : Closure.IsBound pic.imports n := by
  intro l hd hl
  refine h l hd fun q hq => ?_
  obtain ⟨p, hp⟩ := hl q hq
  exact ⟨hp.normal, isFile_of_imports hp⟩

end Picture

/-- The files as they are on disk. -/
def Disk.picture (d : Disk) : Picture := fun p => ⟨d.read? p, d.hasFile p⟩

namespace ServiceHost

/-- The files as a host knows them: those in its table, and the others as they are. -/
def picture (h : ServiceHost) (view : FileView) : Picture :=
  fun p => ⟨h.read? view p, h.hasFile view p⟩

variable {d : Disk} {h h' : ServiceHost}

theorem hasFile_eq_or (h : ServiceHost) (view : FileView) (p : Path) :
    h.hasFile view p = ((h.files.text? p.normalize).isSome || view.hasFile p.normalize) := by
  rw [hasFile, FileTable.contains_eq_text?]

/-- The table decides what a host shows of the files. -/
theorem picture_of_files (hfiles : h'.files = h.files) (view : FileView) :
    h'.picture view = h.picture view := by
  funext p
  rw [picture, picture, read?_eq_or, read?_eq_or, hasFile_eq_or, hasFile_eq_or, hfiles]

/-- What is taken in was there before, and what was there stays. -/
theorem Grows.hasFile_eq (g : Grows d.view h h') (p : Path) :
    h'.hasFile d.view p = h.hasFile d.view p := by
  rw [hasFile_eq_or, hasFile_eq_or]
  cases hn : h'.files.text? p.normalize with
  | none =>
    cases ho : h.files.text? p.normalize with
    | none => rfl
    | some t => rw [g.text?_eq ho] at hn; cases hn
  | some t =>
    rcases g.text?_cases hn with ho | ⟨ho, hd⟩
    · rw [ho]
    · rw [Path.normalize_normalize] at hd
      rw [ho, show d.view.hasFile p.normalize = true from Disk.hasFile_of_read? hd]
      rfl

theorem Grows.picture_eq (g : Grows d.view h h') : h'.picture d.view = h.picture d.view := by
  funext p
  rw [picture, picture, g.read?_eq, g.hasFile_eq]

theorem resolvedModules_eq_imports (h : ServiceHost) (d : Disk) (file : Path) :
    (Miniature.resolvedModules d.view h file).1 = (h.picture d.view).imports file := by
  have hfile : (fun p => ((h.picture d.view) p.normalize).isFile) = h.hasFile d.view := by
    funext p
    simp only [picture, hasFile, Path.normalize_normalize]
  have hread : ((h.picture d.view) file.normalize).text = h.read? d.view file := by
    simp only [picture, read?, Path.normalize_normalize]
  have hsnapshot : (h.snapshot d.view file).2.hasFile d.view = h.hasFile d.view :=
    funext (snapshot_grows h d.view file).hasFile_eq
  rw [Miniature.resolvedModules_eq, Picture.imports, hfile, hread, hsnapshot]

/-- All files in the picture are known or on disk, so there are no more of them than known
files and files on disk. -/
theorem isBound_imports (h : ServiceHost) (d : Disk) :
    Closure.IsBound (h.picture d.view).imports (h.files.records.length + d.view.count) := by
  refine Picture.isBound_imports fun l hd hl => ?_
  have hfile : ∀ q ∈ l, h.files.contains q = true ∨ d.store.hasFile q = true := by
    intro q hq
    obtain ⟨hnormal, hexists⟩ := hl q hq
    simp only [picture, hasFile, hnormal, Bool.or_eq_true] at hexists
    exact hexists
  -- Those that are known, and the rest, which is on disk.
  have hknown : (l.filter fun q => h.files.contains q).length ≤ h.files.records.length :=
    Assoc.length_le_of_find? (hd.filter _)
    (fun q hq => (hl q (List.mem_filter.mp hq).1).1) (fun q hq => (List.mem_filter.mp hq).2)
  have hrest := Store.length_le_of_hasFile (s := d.store)
    (l := l.filter fun q => !h.files.contains q) (hd.filter _)
    (fun q hq => (hl q (List.mem_filter.mp hq).1).1) (fun q hq => by
      obtain ⟨hq, hn⟩ := List.mem_filter.mp hq
      rcases hfile q hq with h' | h'
      · simp [h'] at hn
      · exact h')
  have hsum := List.length_eq_length_filter_add (l := l) fun q => h.files.contains q
  have hcount : d.view.count = d.store.files.length := rfl
  omega

end ServiceHost

/-! ## The walk of a session -/

namespace LanguageCompiler
namespace Session

variable {s s' : Session}

/-- The project as the session sees it. -/
def picture (s : Session) : Picture := s.compiler.host.picture s.world.view

theorem picture_eq_of_held {p : Path} {t : Text} (hp : p.normalize = p)
    (ht : s.held? p = some t) : s.picture p = ⟨some t, true⟩ := by
  rw [held?] at ht
  rw [picture, ServiceHost.picture, ServiceHost.read?_eq_or, ServiceHost.hasFile_eq_or, hp, ht]
  rfl

theorem picture_eq_of_not_held {p : Path} (hp : p.normalize = p) (ht : s.held? p = none) :
    s.picture p = s.world.disk.picture p := by
  rw [held?] at ht
  rw [picture, ServiceHost.picture, ServiceHost.read?_eq_or, ServiceHost.hasFile_eq_or, hp, ht]
  rfl

theorem Explores.picture_eq (e : Explores s s') : s'.picture = s.picture := by
  rw [picture, picture, e.view]
  exact e.host.picture_eq

theorem ask_modulesOf (hm : s.world.engine.IsMiniature) (file : Path) :
    (s.ask Engine.modulesOf file).1 = s.picture.imports file := by
  obtain ⟨m, hm⟩ := hm.exists
  have hanswer : (Engine.modulesOf s.world.view s.service file).1 =
      (Miniature.resolvedModules s.world.disk.view s.compiler.host file).1 := by
    rw [Engine.modulesOf, Engine.dispatch_miniature (s := s.service) hm]
    simp only [Miniature.Engine.modulesOf, Service.ask, Miniature.Engine.sync_host]
    rfl
  rw [ask, hanswer, ServiceHost.resolvedModules_eq_imports]
  rfl

/-- A bound on the modules that a session's files import. -/
def bound (s : Session) : Nat := Engine.moduleBound s.world.view s.service

theorem isBound_imports (hm : s.world.engine.IsMiniature) :
    Closure.IsBound s.picture.imports s.bound := by
  obtain ⟨m, hm⟩ := hm.exists
  have hb : s.bound = s.compiler.host.files.records.length + s.world.disk.view.count := by
    rw [bound, Engine.moduleBound, show s.service.engine = .miniature m from hm]
    rfl
  rw [hb]
  exact ServiceHost.isBound_imports s.compiler.host s.world.disk

theorem collectModules_eq (hm : s.world.engine.IsMiniature) (file : Path) :
    (s.collectModules file).1 = Closure.ofImports s.picture.imports s.bound file := by
  refine Closure.of_eq_ofImports (P := Explores s) ?_ _ _ _ (Explores.refl hm)
  intro s' file he
  refine ⟨?_, he.trans (ask_explores Engine.modulesOf_takesIn he.miniature file)⟩
  rw [ask_modulesOf he.miniature, he.picture_eq]

end Session
end LanguageCompiler
end TestTransform

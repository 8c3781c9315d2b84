/-
Hosts that look alike.

What an engine is told about a project are texts, which files there are, and which
declaration files belong to the program.  Two hosts are `Alike` if they tell it the same of
these things, as far as the paths in `V` go.  Their tables may differ in all else: versions,
outputs, the number of the project's state, and files that are held in one of them and only
on disk for the other.  A look at the same file leaves two such hosts alike.

`W` are files of which it matters beside this whether they are in the table.
-/
import TestTransform.Proofs.Compiler.Modules
import TestTransform.Proofs.Path.Dotted

namespace TestTransform

theorem Path.isDeclaration_congr {p q : Path} (h : p.same q = true) :
    p.isDeclaration = q.isDeclaration := by
  have hname : p.name? = q.name? := by
    ext name
    rw [Path.name?_eq_some_iff, Path.name?_eq_some_iff, Path.same_iff.mp h]
  rw [Path.isDeclaration, Path.isDeclaration, hname]

/-- What a declaration file is told by has a dot in it. -/
theorem Path.isDotted_of_isDeclaration {p : Path} (h : p.isDeclaration = true) : p.IsDotted := by
  rw [Path.isDeclaration] at h
  cases hname : p.name? with
  | none =>
    rw [hname] at h
    cases h
  | some name =>
    refine ⟨name, hname, ?_⟩
    have hends : ∀ ending : Text, '.' ∈ ending → Text.endsWith name ending = true → '.' ∈ name := by
      intro ending hdot hend
      obtain ⟨front, rfl⟩ := Text.endsWith_iff.mp hend
      exact List.mem_append_right _ hdot
    simp only [hname, Option.getD_some, Bool.or_eq_true] at h
    rcases h with (h | h) | h
    · exact hends _ (by decide) h
    · exact hends _ (by decide) h
    · exact hends _ (by decide) h

namespace ServiceHost

/-- Whether a file is part of the program. -/
def isScript (h : ServiceHost) (p : Path) : Bool := h.files.contains p || h.isRoot p

theorem picture_congr {p q : Path} (h : ServiceHost) (view : FileView)
    (hn : p.normalize = q.normalize) : h.picture view p = h.picture view q := by
  simp only [picture, read?, hasFile, hn]

/-! ## Files that are shown or looked at -/

theorem contains_updateFile (h : ServiceHost) (file : Path) (text : Text) (p : Path) :
    (h.updateFile file text).2.files.contains p = (p.same file || h.files.contains p) := by
  rw [FileTable.contains_eq_text?, text?_updateFile, FileTable.contains_eq_text?]
  split
  · rename_i hs
    simp [hs]
  · rename_i hs
    simp [hs]

/-- After a look a file is known if it was before, or if it is the file and has a text. -/
theorem contains_snapshot (h : ServiceHost) (view : FileView) (file q : Path) :
    (h.snapshot view file).2.files.contains q =
      (h.files.contains q || (q.same file.normalize && (h.read? view file).isSome)) := by
  have hput : ∀ t, (h.files.update file.normalize t).2.contains q =
      (h.files.contains q || q.same file.normalize) := by
    intro t
    rw [FileTable.contains_eq_text?, FileTable.text?_update, FileTable.contains_eq_text?]
    split
    · rename_i hq
      simp [hq]
    · rename_i hq
      simp [hq]
  rw [read?_eq_or]
  cases ht : h.files.text? file.normalize with
  | some t =>
    by_cases hq : q.same file.normalize = true
    · have hknown : h.files.contains q = true := by
        rw [FileTable.contains_eq_text?, FileTable.text?_congr hq, ht]
        rfl
      simp [snapshot, ht, hknown]
    · simp [snapshot, ht, hq]
  | none =>
    cases hd : view.read? file.normalize with
    | none => simp [snapshot, ht, hd]
    | some t =>
      by_cases hroot : h.isRoot file.normalize = true
      · simp [snapshot, ht, hd, hroot, hput]
      · simp [snapshot, ht, hd, hroot, files_updateFile, hput]

theorem Grows.isRoot_eq {view : FileView} {h h' : ServiceHost} (g : Grows view h h') (p : Path) :
    h'.isRoot p = h.isRoot p := by
  rw [isRoot, g.rootFiles, isRoot]

theorem isScript_snapshot (h : ServiceHost) (view : FileView) (file q : Path) :
    (h.snapshot view file).2.isScript q =
      (h.isScript q || (q.same file.normalize && (h.read? view file).isSome)) := by
  rw [isScript, contains_snapshot, (snapshot_grows h view file).isRoot_eq, isScript,
    Bool.or_assoc, Bool.or_assoc, Bool.or_comm (h.isRoot q)]

/-! ## Two hosts -/

structure Alike (V W : Path → Prop) (d d' : Disk) (h h' : ServiceHost) : Prop where
  shows : ∀ p : Path, V p.normalize → h.picture d.view p = h'.picture d'.view p
  scripts : ∀ p, p.isDeclaration = true → h.isScript p = h'.isScript p
  loaded : ∀ p, W p → h.files.contains p = h'.files.contains p

namespace Alike

variable {V W : Path → Prop} {d d' : Disk} {h h' : ServiceHost} {p file : Path}

theorem refl (V W : Path → Prop) (d : Disk) (h : ServiceHost) : Alike V W d d h h :=
  ⟨fun _ _ => rfl, fun _ _ => rfl, fun _ _ => rfl⟩

theorem read (a : Alike V W d d' h h') (hp : V p.normalize) :
    h.read? d.view p = h'.read? d'.view p :=
  congrArg Glimpse.text (a.shows p hp)

theorem isFile (a : Alike V W d d' h h') (hp : V p.normalize) :
    h.hasFile d.view p = h'.hasFile d'.view p :=
  congrArg Glimpse.isFile (a.shows p hp)

/-- Looking at a file leaves two hosts alike.  If they need not agree on it, it is neither a
declaration nor one of the files in `W`, and only its own text can have changed. -/
theorem snapshot_host (hV : ∀ p : Path, p.IsDotted → V p)
    (hW : ∀ p : Path, W p → V p.normalize)
    (a : Alike V W d d' h h') (file : Path) :
    Alike V W d d' (h.snapshot d.view file).2 (h'.snapshot d'.view file).2 := by
  have hsame : ∀ p : Path, V p.normalize → p.same file.normalize = true → V file.normalize := by
    intro p hp hs
    have hn := Path.normalize_congr hs
    rw [Path.normalize_normalize] at hn
    rwa [← hn]
  have hread : ∀ p : Path, V p.normalize →
      (p.same file.normalize && (h.read? d.view file).isSome) =
        (p.same file.normalize && (h'.read? d'.view file).isSome) := by
    intro p hp
    by_cases hs : p.same file.normalize = true
    · rw [a.read (hsame p hp hs)]
    · simp [hs]
  constructor
  · intro p hp
    rw [(snapshot_grows h d.view file).picture_eq, (snapshot_grows h' d'.view file).picture_eq]
    exact a.shows p hp
  · intro p hp
    have hdotted := (Path.isDotted_of_isDeclaration hp).normalize
    rw [isScript_snapshot, isScript_snapshot, a.scripts p hp, hread p (hV _ hdotted)]
  · intro p hp
    rw [contains_snapshot, contains_snapshot, a.loaded p hp, hread p (hW p hp)]

theorem snapshot_text (a : Alike V W d d' h h') (hf : V file.normalize) :
    (h.snapshot d.view file).1 = (h'.snapshot d'.view file).1 := by
  rw [ServiceHost.snapshot_text, ServiceHost.snapshot_text, a.read hf]

/-- Showing both the same text. -/
theorem updateFile (a : Alike V W d d' h h') (file : Path) (text : Text) :
    Alike V W d d' (h.updateFile file text).2 (h'.updateFile file text).2 := by
  constructor
  · intro p hp
    have hshows := a.shows p hp
    simp only [picture, Glimpse.mk.injEq, read?_eq_or, hasFile_eq_or, text?_updateFile] at hshows ⊢
    split
    · simp
    · exact hshows
  · intro p hp
    have hscript : ∀ h : ServiceHost, (h.updateFile file text).2.isScript p =
        (p.same file || h.isScript p) := by
      intro h
      rw [isScript, contains_updateFile, Bool.or_assoc]
      rfl
    rw [hscript, hscript, a.scripts p hp]
  · intro p hp
    rw [contains_updateFile, contains_updateFile, a.loaded p hp]

/-- What does not belong to a picture does not matter. -/
theorem of_files {g g' : ServiceHost} (a : Alike V W d d' h h') (hf : g.files = h.files)
    (hf' : g'.files = h'.files) (hr : g.rootFiles = h.rootFiles)
    (hr' : g'.rootFiles = h'.rootFiles) : Alike V W d d' g g' := by
  refine ⟨fun p hp => ?_, fun p hp => ?_, fun p hp => ?_⟩
  · have hshows := a.shows p hp
    simp only [picture, read?, hasFile, hf, hf'] at hshows ⊢
    exact hshows
  · have hscript := a.scripts p hp
    simp only [isScript, isRoot, hf, hf', hr, hr'] at hscript ⊢
    exact hscript
  · rw [hf, hf']
    exact a.loaded p hp

/-- A declaration file that one program names is one that the other names. -/
theorem exists_name (a : Alike V W d d' h h') {name : Path} (hd : name.isDeclaration = true)
    (hmem : name ∈ h.scriptNames) : ∃ name' ∈ h'.scriptNames, name'.same name = true := by
  have hscript : h.isScript name = true := by
    rw [isScript, Bool.or_eq_true]
    exact (exists_scriptNames_iff h name).mp ⟨name, hmem, Path.same_refl name⟩
  rw [a.scripts name hd, isScript, Bool.or_eq_true] at hscript
  exact (exists_scriptNames_iff h' name).mpr hscript

theorem symm (a : Alike V W d d' h h') : Alike V W d' d h' h :=
  ⟨fun p hp => (a.shows p hp).symm, fun p hp => (a.scripts p hp).symm,
    fun p hp => (a.loaded p hp).symm⟩

end Alike
end ServiceHost
end TestTransform

/-
The file table and the host around it.

Showing a text changes one file and drops its output; taking a file in from disk changes
no file that is known.  What a question to the engine may do to a host is `Grows`: files
that were not known are taken in with the text that the disk holds, and nothing else but
the number of the project's state changes.
-/
import TestTransform.Compiler.ServiceHost
import TestTransform.Proofs.Order.Lookup
import TestTransform.Proofs.Order.Sorting
import TestTransform.Proofs.Path.Normal

namespace TestTransform

/-! ## The table -/

namespace FileTable

theorem get?_congr {p q : Path} (h : p.same q = true) (t : FileTable) : t.get? p = t.get? q :=
  Assoc.find?_congr (Path.cmp_eq_iff_same.mpr h) _

theorem get?_put (t : FileTable) (p q : Path) (r : FileRecord) :
    (t.put p r).get? q = if q.same p then some r else t.get? q := by
  simp only [get?, put, Assoc.find?_insert, Path.cmp_eq_iff_same]

theorem text?_congr {p q : Path} (h : p.same q = true) (t : FileTable) : t.text? p = t.text? q := by
  rw [text?, text?, get?_congr h]

theorem contains_eq_true {t : FileTable} {p : Path} :
    t.contains p = true ↔ ∃ r, t.get? p = some r := by
  rw [contains, Option.isSome_iff_exists]

theorem contains_eq_text? (t : FileTable) (p : Path) : t.contains p = (t.text? p).isSome := by
  simp [contains, text?]

/-- An update finds the text in the table, or is news and leaves the file without output. -/
theorem update_cases (t : FileTable) (p : Path) (text : Text) :
    (t.text? p = some text ∧ t.update p text = (.unchanged, t)) ∨
      (t.text? p ≠ some text ∧ ∃ u version, u.isDirty = true ∧
        t.update p text = (u, t.put p { text, version })) := by
  cases h : t.get? p with
  | none => exact .inr ⟨by simp [text?, h], .added, 1, rfl, by simp [update, h]⟩
  | some r =>
    by_cases hr : r.text = text
    · exact .inl ⟨by simp [text?, h, hr], by simp [update, h, hr]⟩
    · exact .inr ⟨by simp [text?, h, hr], .changed, r.version + 1, rfl, by simp [update, h, hr]⟩

theorem text?_update (t : FileTable) (p q : Path) (text : Text) :
    (t.update p text).2.text? q = if q.same p then some text else t.text? q := by
  rcases update_cases t p text with ⟨hp, hu⟩ | ⟨-, u, version, -, hu⟩
  · rw [hu]
    split
    · rename_i h
      rw [text?_congr h, hp]
    · rfl
  · rw [hu, text?, get?_put]
    split <;> rfl

theorem get?_storeOutput (t : FileTable) (p q : Path) (v : Nat) (o : CompiledOutput) :
    (t.storeOutput p v o).get? q =
      if q.same p then (t.get? p).map fun r => { r with output := some (v, o) } else t.get? q := by
  unfold storeOutput
  split
  · rename_i h
    split
    · rename_i hq
      rw [get?_congr hq, h, Option.map_none]
    · rfl
  · rename_i r h
    rw [get?_put, h, Option.map_some]

theorem text?_storeOutput (t : FileTable) (p q : Path) (v : Nat) (o : CompiledOutput) :
    (t.storeOutput p v o).text? q = t.text? q := by
  rw [text?, get?_storeOutput]
  split
  · rename_i h
    rw [text?_congr h, text?]
    cases t.get? p <;> rfl
  · rfl

theorem output?_eq_some {t : FileTable} {p : Path} {v : Nat} {o : CompiledOutput} :
    t.output? p v = some o ↔ ∃ r, t.get? p = some r ∧ r.output = some (v, o) := by
  unfold output?
  cases h : t.get? p with
  | none => simp
  | some r =>
    cases ho : r.output with
    | none => simp [ho]
    | some b =>
      obtain ⟨builtAt, o'⟩ := b
      by_cases hv : builtAt = v
      · simp [ho, hv]
      · simp [ho, hv]

/-- A file is known if its path is one of the paths, however it is spelled there. -/
theorem contains_iff_paths {t : FileTable} {p : Path} :
    t.contains p = true ↔ ∃ q ∈ t.paths, q.same p = true := by
  rw [contains_eq_true]
  constructor
  · rintro ⟨r, hr⟩
    obtain ⟨q, hq, hmem⟩ := Assoc.mem_of_find? hr
    refine ⟨q, List.mem_map.mpr ⟨(q, r), hmem, rfl⟩, ?_⟩
    rw [Path.same_comm]
    exact Path.cmp_eq_iff_same.mp hq
  · rintro ⟨q, hq, hsame⟩
    obtain ⟨⟨q', r⟩, hmem, rfl⟩ := List.mem_map.mp hq
    rw [Path.same_comm] at hsame
    exact Option.isSome_iff_exists.mp
      (Assoc.find?_isSome_of_mem (Path.cmp_eq_iff_same.mpr hsame) hmem)

end FileTable

/-! ## The host -/

namespace ServiceHost

/-- What a question may do to a host: files that were not known are taken in as they are on
disk. -/
structure Grows (view : FileView) (h h' : ServiceHost) : Prop where
  rootFiles : h'.rootFiles = h.rootFiles
  options : h'.options = h.options
  cwd : h'.cwd = h.cwd
  version : h.projectVersion ≤ h'.projectVersion
  known : ∀ p r, h.files.get? p = some r → h'.files.get? p = some r
  new : ∀ p r, h.files.get? p = none → h'.files.get? p = some r →
    view.read? p.normalize = some r.text ∧ r.output = none

theorem read?_eq_or (h : ServiceHost) (view : FileView) (p : Path) :
    h.read? view p = (h.files.text? p.normalize).or (view.read? p.normalize) := by
  simp only [read?]
  cases h.files.text? p.normalize <;> rfl

namespace Grows

variable {view : FileView} {h h' h'' : ServiceHost}

theorem refl (view : FileView) (h : ServiceHost) : Grows view h h :=
  { rootFiles := rfl, options := rfl, cwd := rfl, version := Nat.le_refl _
    known := fun _ _ hp => hp
    new := fun _ _ hn hp => by simp [hn] at hp }

theorem trans (a : Grows view h h') (b : Grows view h' h'') : Grows view h h'' :=
  { rootFiles := b.rootFiles.trans a.rootFiles
    options := b.options.trans a.options
    cwd := b.cwd.trans a.cwd
    version := Nat.le_trans a.version b.version
    known := fun p r hp => b.known p r (a.known p r hp)
    new := by
      intro p r hn hp
      cases hm : h'.files.get? p with
      | none => exact b.new p r hm hp
      | some r' =>
        have hr := b.known p r' hm
        rw [hp] at hr
        cases hr
        exact a.new p r hn hm }

/-- The text of a known file is not touched. -/
theorem text?_eq (g : Grows view h h') {p : Path} {t : Text} (hp : h.files.text? p = some t) :
    h'.files.text? p = some t := by
  obtain ⟨r, hr, rfl⟩ := Option.map_eq_some_iff.mp hp
  exact Option.map_eq_some_iff.mpr ⟨r, g.known p r hr, rfl⟩

/-- A text that is held afterwards was held before, or is the one on disk. -/
theorem text?_cases (g : Grows view h h') {p : Path} {t : Text}
    (hp : h'.files.text? p = some t) :
    h.files.text? p = some t ∨ (h.files.text? p = none ∧ view.read? p.normalize = some t) := by
  obtain ⟨r, hr, rfl⟩ := Option.map_eq_some_iff.mp hp
  cases hm : h.files.get? p with
  | none => exact .inr ⟨by simp [FileTable.text?, hm], (g.new p r hm hr).1⟩
  | some r' =>
    have h' := g.known p r' hm
    rw [hr] at h'
    cases h'
    exact .inl (by simp [FileTable.text?, hm])

/-- Reading a file gives the same text before and after. -/
theorem read?_eq (g : Grows view h h') (p : Path) : h'.read? view p = h.read? view p := by
  rw [read?_eq_or, read?_eq_or]
  cases hn : h'.files.text? p.normalize with
  | none =>
    cases ho : h.files.text? p.normalize with
    | none => rfl
    | some t => rw [g.text?_eq ho] at hn; cases hn
  | some t =>
    rcases g.text?_cases hn with ho | ⟨ho, hd⟩
    · rw [ho]
    · rw [Path.normalize_normalize] at hd
      rw [ho, hd]
      rfl

end Grows

/-- Showing a text moves the state of the project exactly if the text is news. -/
theorem updateFile_cases (h : ServiceHost) (p : Path) (text : Text) :
    (h.files.text? p = some text ∧ (h.updateFile p text).2 = h) ∨
      (h.files.text? p ≠ some text ∧ ∃ version, (h.updateFile p text).2 =
        { h with files := h.files.put p { text, version }
                 projectVersion := h.projectVersion + 1 }) := by
  rcases FileTable.update_cases h.files p text with ⟨hp, hu⟩ | ⟨hp, u, version, hd, hu⟩
  · exact .inl ⟨hp, by simp [updateFile, hu, FileUpdate.isDirty]⟩
  · exact .inr ⟨hp, version, by simp [updateFile, hu, hd]⟩

theorem files_updateFile (h : ServiceHost) (p : Path) (text : Text) :
    (h.updateFile p text).2.files = (h.files.update p text).2 := rfl

theorem text?_updateFile (h : ServiceHost) (p q : Path) (text : Text) :
    (h.updateFile p text).2.files.text? q = if q.same p then some text else h.files.text? q := by
  rw [files_updateFile, FileTable.text?_update]

/-- Putting down the text of an unknown file as it is on disk. -/
theorem grows_put {view : FileView} {h : ServiceHost} {p : Path} {t : Text} {version n : Nat}
    (hn : h.files.text? p = none) (hd : view.read? p.normalize = some t)
    (hv : h.projectVersion ≤ n) :
    Grows view h
      { h with files := h.files.put p { text := t, version }, projectVersion := n } := by
  have hg : h.files.get? p = none := by simpa [FileTable.text?] using hn
  refine ⟨rfl, rfl, rfl, hv, ?_, ?_⟩
  · intro q r hq
    have hne : ¬ q.same p = true := fun hs => by
      rw [FileTable.get?_congr hs, hg] at hq
      cases hq
    rw [FileTable.get?_put, if_neg hne, hq]
  · intro q r hqn hq
    rw [FileTable.get?_put] at hq
    split at hq
    · rename_i hs
      cases hq
      exact ⟨by rw [Path.normalize_congr hs, hd], rfl⟩
    · rw [hqn] at hq
      cases hq

/-- Showing the text that a file has on disk, if it is not held with another one. -/
theorem grows_updateFile {view : FileView} {h : ServiceHost} {p : Path} {text : Text}
    (hd : view.read? p.normalize = some text) (hheld : ∀ t, h.files.text? p = some t → t = text) :
    Grows view h (h.updateFile p text).2 := by
  rcases updateFile_cases h p text with ⟨-, hu⟩ | ⟨hn, version, hu⟩
  · rw [hu]
    exact Grows.refl view h
  · rw [hu]
    have hnone : h.files.text? p = none := by
      cases ht : h.files.text? p with
      | none => rfl
      | some t =>
        rw [hheld t ht] at ht
        exact absurd ht hn
    exact grows_put hnone hd (Nat.le_succ _)

/-- A snapshot is what reading the file gives, and the host only grows. -/
theorem snapshot_spec (h : ServiceHost) (view : FileView) (file : Path) :
    (h.snapshot view file).1 = h.read? view file ∧
      Grows view h (h.snapshot view file).2 := by
  cases ht : h.files.text? file.normalize with
  | some t =>
    simp only [snapshot, read?_eq_or, ht]
    exact ⟨rfl, Grows.refl view h⟩
  | none =>
    cases hd : view.read? file.normalize with
    | none =>
      simp only [snapshot, read?_eq_or, ht, hd]
      exact ⟨rfl, Grows.refl view h⟩
    | some t =>
      have hput : ∀ version n, h.projectVersion ≤ n → Grows view h
          { h with files := h.files.put file.normalize { text := t, version }
                   projectVersion := n } :=
        fun version n => grows_put ht (by rw [Path.normalize_normalize, hd])
      simp only [snapshot, read?_eq_or, ht, hd]
      split
      · refine ⟨rfl, ?_⟩
        rcases FileTable.update_cases h.files file.normalize t with ⟨hp, -⟩ | ⟨-, u, v, -, hu⟩
        · rw [ht] at hp
          cases hp
        · rw [hu]
          exact hput v h.projectVersion (Nat.le_refl _)
      · refine ⟨rfl, ?_⟩
        rcases updateFile_cases h file.normalize t with ⟨hp, -⟩ | ⟨-, v, hu⟩
        · rw [ht] at hp
          cases hp
        · rw [hu]
          exact hput v (h.projectVersion + 1) (Nat.le_succ _)

theorem snapshot_text (h : ServiceHost) (view : FileView) (file : Path) :
    (h.snapshot view file).1 = h.read? view file :=
  (snapshot_spec h view file).1

theorem snapshot_grows (h : ServiceHost) (view : FileView) (file : Path) :
    Grows view h (h.snapshot view file).2 :=
  (snapshot_spec h view file).2

/-- A file that is in the table is read from there. -/
theorem read?_of_text? {h : ServiceHost} {p : Path} {t : Text} (view : FileView)
    (hp : p.normalize = p) (ht : h.files.text? p = some t) : h.read? view p = some t := by
  rw [read?_eq_or, hp, ht]
  rfl

/-! ## The names of the program's files -/

/-- A path is a name of the program if its file is known or is an input file. -/
theorem exists_scriptNames_iff (h : ServiceHost) (p : Path) :
    (∃ name ∈ h.scriptNames, name.same p = true) ↔
      h.files.contains p = true ∨ h.isRoot p = true := by
  have hroot : h.isRoot p = true ↔ ∃ name ∈ h.rootFiles, name.same p = true := by
    rw [isRoot, List.any_eq_true]
    constructor
    · rintro ⟨name, hmem, hs⟩
      exact ⟨name, hmem, by rwa [Path.same_comm]⟩
    · rintro ⟨name, hmem, hs⟩
      exact ⟨name, hmem, by rwa [Path.same_comm]⟩
  have hknown {name : Path} (hs : name.same p = true) :
      h.files.contains name = h.files.contains p := by
    rw [FileTable.contains_eq_text?, FileTable.text?_congr hs, FileTable.contains_eq_text?]
  rw [FileTable.contains_iff_paths, hroot]
  constructor
  · rintro ⟨name, hmem, hs⟩
    rw [scriptNames, Sorted.mem_sort, List.mem_append, List.mem_filter] at hmem
    rcases hmem with hmem | ⟨hmem, -⟩
    · exact .inl ⟨name, hmem, hs⟩
    · exact .inr ⟨name, hmem, hs⟩
  · intro hor
    by_cases hc : h.files.contains p = true
    · obtain ⟨name, hmem, hs⟩ := FileTable.contains_iff_paths.mp hc
      refine ⟨name, ?_, hs⟩
      rw [scriptNames, Sorted.mem_sort]
      exact List.mem_append_left _ hmem
    · rcases hor with hor | ⟨name, hmem, hs⟩
      · exact absurd (FileTable.contains_iff_paths.mpr hor) hc
      · refine ⟨name, ?_, hs⟩
        rw [scriptNames, Sorted.mem_sort]
        refine List.mem_append_right _ (List.mem_filter.mpr ⟨hmem, ?_⟩)
        simpa [hknown hs] using hc

end ServiceHost
end TestTransform

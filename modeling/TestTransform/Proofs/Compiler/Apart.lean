/-
A file that cannot be imported.

Everything that is looked for on behalf of an import has a dot in its name.  So two
pictures of a project that differ only in a file without one have the same imports
everywhere else, and the same walks from every start.
-/
import TestTransform.Proofs.Compiler.Modules
import TestTransform.Proofs.Path.Dotted
import TestTransform.Proofs.Files.Apart
import Mathlib.Data.List.Find

namespace TestTransform

set_option maxRecDepth 8000 in
/-- The name of the file for a graph has no dot in it, so the file is never imported. -/
theorem GraphCache.not_isDotted_join (dir : Path) :
    ¬ (dir.join ⟨fileName⟩).normalize.IsDotted :=
  Path.not_isDotted_join dir (by decide) (by decide)

namespace Miniature

/-- Every suffix has a dot, and makes a name of its own or lengthens one. -/
theorem suffix_cases : ∀ suffix ∈ suffixes,
    ('/' ∉ suffix ∧ '.' ∈ suffix ∧ 3 ≤ suffix.length) ∨
      (suffix = '/' :: suffix.tail ∧ Component.IsName suffix.tail ∧ '.' ∈ suffix.tail) := by
  decide

theorem isDotted_of_mem_candidates {base p : Path} (h : p ∈ candidates base) : p.IsDotted := by
  rcases List.mem_append.mp h with h | h
  · split at h
    · rw [List.mem_singleton.mp h]
      exact Path.isDotted_of_extension? ‹_›
    · simp at h
  · obtain ⟨suffix, hsuffix, rfl⟩ := List.mem_map.mp h
    rcases suffix_cases suffix hsuffix with ⟨hslash, hdot, hlong⟩ | ⟨heq, hname, hdot⟩
    · exact Path.isDotted_append hslash hdot hlong base
    · rw [heq]
      exact Path.isDotted_append_slash hname hdot base

theorem isDotted_of_resolveModule {hasFile : Path → Bool} {file m : Path} {specifier : Text}
    (h : resolveModule hasFile file specifier = some m) : m.IsDotted := by
  obtain ⟨base, -, hm⟩ := List.mem_flatMap.mp (List.mem_of_find?_eq_some h)
  exact isDotted_of_mem_candidates hm

variable {hasFile hasFile' : Path → Bool}

theorem resolveModule_congr (h : ∀ p, p.IsDotted → hasFile p = hasFile' p) (file : Path)
    (specifier : Text) : resolveModule hasFile file specifier =
      resolveModule hasFile' file specifier := by
  refine List.find?_congr fun p hp => ?_
  obtain ⟨base, -, hp⟩ := List.mem_flatMap.mp hp
  exact h p (isDotted_of_mem_candidates hp)

theorem importedModules_congr (h : ∀ p, p.IsDotted → hasFile p = hasFile' p) (file : Path)
    (text : Text) : importedModules hasFile file text = importedModules hasFile' file text := by
  rw [importedModules, importedModules, funext (resolveModule_congr h file)]

end Miniature

namespace Picture

/-- Whether two pictures show the same of all files but one. -/
def AgreesApart (g : Path) (pic pic' : Picture) : Prop :=
  ∀ p, p.normalize = p → p ≠ g → pic p = pic' p

variable {g : Path} {pic pic' : Picture}

theorem AgreesApart.symm (h : AgreesApart g pic pic') : AgreesApart g pic' pic :=
  fun p hp hne => (h p hp hne).symm

theorem AgreesApart.trans {pic'' : Picture} (h : AgreesApart g pic pic')
    (h' : AgreesApart g pic' pic'') : AgreesApart g pic pic'' :=
  fun p hp hne => (h p hp hne).trans (h' p hp hne)

variable (hg : ¬ g.IsDotted)
include hg

theorem imports_congr (h : AgreesApart g pic pic') {p : Path}
    (htext : (pic p.normalize).text = (pic' p.normalize).text) : pic.imports p = pic'.imports p := by
  have hfile : ∀ q : Path, q.IsDotted → (pic q.normalize).isFile = (pic' q.normalize).isFile := by
    intro q hq
    have hne : q.normalize ≠ g := by
      rintro rfl
      exact hg hq.normalize
    rw [h _ (Path.normalize_normalize q) hne]
  rw [imports, imports, htext]
  split
  · rfl
  · exact Miniature.importedModules_congr hfile p _

/-- What is imported is another file. -/
theorem ne_of_imports {p q : Path} (h : Closure.Imports pic.imports p q) : q ≠ g := by
  obtain ⟨m, hm, rfl, -⟩ := h
  rw [imports] at hm
  split at hm
  · simp at hm
  · obtain ⟨specifier, hm⟩ := Miniature.resolve_of_mem_importedModules hm
    rintro rfl
    exact hg (Miniature.isDotted_of_resolveModule hm).normalize

/-- Walks from the same text find the same modules in the same order. -/
theorem ofImports_congr (h : AgreesApart g pic pic') {start : Path} (hs : start.normalize = start)
    (htext : (pic start).text = (pic' start).text) {b b' : Nat}
    (hb : Closure.IsBound pic.imports b) (hb' : Closure.IsBound pic'.imports b') :
    Closure.ofImports pic.imports b start = Closure.ofImports pic'.imports b' start := by
  have hreached : ∀ p, Closure.Reaches pic'.imports start p → pic.imports p = pic'.imports p := by
    intro p hp
    refine imports_congr hg h ?_
    rw [hp.normal hs]
    by_cases hstart : p = start
    · rw [hstart, htext]
    · obtain ⟨q, hq⟩ := hp.imported hstart
      rw [h p (hp.normal hs) (ne_of_imports hg hq)]
  have hmono : ∀ {imports : Path → List Path} {n m : Nat}, Closure.IsBound imports n → n ≤ m →
      Closure.IsBound imports m := fun hn hle l hd hl => Nat.le_trans (hn l hd hl) hle
  calc Closure.ofImports pic.imports b start
      = Closure.ofImports pic.imports (max b b') start :=
        Closure.ofImports_bound hs hb (hmono hb (Nat.le_max_left b b'))
    _ = Closure.ofImports pic'.imports (max b b') start := Closure.ofImports_congr hs hreached _
    _ = Closure.ofImports pic'.imports b' start :=
        Closure.ofImports_bound hs (hmono hb' (Nat.le_max_right b b')) hb'

/-- The file is in no list of modules. -/
theorem not_mem_ofImports {start : Path} (hs : start.normalize = start) {b : Nat}
    (hb : Closure.IsBound pic.imports b) : g ∉ Closure.ofImports pic.imports b start := by
  intro hmem
  obtain ⟨hreached, hne⟩ := ((Closure.ofImports_isClosure hs hb).mem_iff g).mp hmem
  obtain ⟨p, hp⟩ := hreached.imported hne
  exact ne_of_imports hg hp rfl

end Picture

namespace Disk

variable {g : Path} {d d' : Disk}

theorem AgreesApart.picture (h : AgreesApart g d d') :
    Picture.AgreesApart g d.picture d'.picture := by
  intro p hp hne
  have hne' : p.normalize ≠ g := by rwa [hp]
  rw [Disk.picture, Disk.picture, read?, read?, h.read_eq hne', h.hasFile_eq hne']

/-- There are no more modules than files. -/
theorem isBound_imports (d : Disk) : Closure.IsBound d.picture.imports d.view.count := by
  refine Picture.isBound_imports fun l hd hl => ?_
  exact Store.length_le_of_hasFile hd (fun q hq => (hl q hq).1) fun q hq => (hl q hq).2

/-- The modules that a file reaches on disk, in the order in which a walk finds them. -/
def importClosure (d : Disk) (file : Path) : List Path :=
  Closure.ofImports d.picture.imports d.view.count file

end Disk
end TestTransform

/-
Reading and writing files of a store, and how many files there can be.
-/
import Mathlib.Data.List.Nodup
import Mathlib.Data.List.Perm.Subperm
import TestTransform.Files.Store
import TestTransform.Proofs.Order.Lookup
import TestTransform.Proofs.Path.Normal

namespace TestTransform

/-- Of different paths in normal form that are keys of a list, there are no more than the
list is long. -/
theorem Assoc.length_le_of_find? {υ : Type} {entries : List (Path × υ)} {l : List Path}
    (hd : l.Nodup) (hn : ∀ p ∈ l, p.normalize = p)
    (h : ∀ p ∈ l, (Assoc.find? Path.cmp p entries).isSome) : l.length ≤ entries.length := by
  have hnodup : (l.map Path.components).Nodup := by
    refine List.Nodup.map_on ?_ hd
    intro p hp q hq hpq
    rw [← hn p hp, ← hn q hq]
    exact Path.normalize_congr (Path.same_iff.mpr hpq)
  have hsubset : l.map Path.components ⊆ entries.map fun e => e.1.components := by
    intro cs hcs
    obtain ⟨p, hp, rfl⟩ := List.mem_map.mp hcs
    obtain ⟨v, hv⟩ := Option.isSome_iff_exists.mp (h p hp)
    obtain ⟨k, hk, hmem⟩ := Assoc.mem_of_find? hv
    exact List.mem_map.mpr ⟨(k, v), hmem, (Path.cmp_eq_iff.mp hk).symm⟩
  simpa using (hnodup.subperm hsubset).length_le

/-! ## Stores -/

namespace Store

theorem file?_normalize (s : Store) (p : Path) : s.file? p.normalize = s.file? p := by
  rw [file?, file?, Path.normalize_normalize]

theorem file?_add (s : Store) (p q : Path) (content : Text) :
    (s.add p content).file? q =
      if q.normalize.same p.normalize then some ⟨content, s.clock + 1⟩ else s.file? q := by
  simp only [file?, add, Assoc.find?_insert, Path.cmp_eq_iff_same]

theorem length_le_of_hasFile {s : Store} {l : List Path} (hd : l.Nodup)
    (hn : ∀ p ∈ l, p.normalize = p) (h : ∀ p ∈ l, s.hasFile p = true) :
    l.length ≤ s.files.length := by
  refine Assoc.length_le_of_find? hd hn fun p hp => ?_
  have := h p hp
  rwa [hasFile, file?, hn p hp] at this

end Store

/-! ## Disks -/

namespace Disk

/-- A text that can be read is that of a file that is there. -/
theorem file?_of_read? {d : Disk} {p : Path} {t : Text} (h : d.read? p = some t) :
    ∃ f, d.store.file? p = some f ∧ f.content = t := by
  simp only [read?, read, guarded] at h
  split at h
  · cases h
  · rw [Store.read] at h
    split at h
    · rename_i f hf
      cases h
      exact ⟨f, hf, rfl⟩
    · cases h

theorem hasFile_of_read? {d : Disk} {p : Path} {t : Text} (h : d.read? p = some t) :
    d.hasFile p = true := by
  obtain ⟨f, hf, -⟩ := file?_of_read? h
  rw [hasFile, Store.hasFile, hf]
  rfl

theorem hasFile_of_read {d : Disk} {p : Path} {t : Text} (h : d.read p = .ok t) :
    d.hasFile p = true := by
  refine hasFile_of_read? (t := t) ?_
  rw [read?, h]
  rfl

end Disk
end TestTransform

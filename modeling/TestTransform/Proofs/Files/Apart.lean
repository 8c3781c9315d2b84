/-
Disks that are alike but for one file and for the times.

A touch changes times only, and a write changes one file.  So whatever is read from other
files stays what it was.
-/
import TestTransform.Proofs.Files.Store

namespace TestTransform

namespace Store

theorem file?_touch (s : Store) (p q : Path) :
    (s.touch p).file? q = (s.file? q).map fun f =>
      if p.normalize.same q.normalize then { f with modified := s.clock + 1 } else f := by
  simp only [file?, touch, Assoc.find?_modify, Path.cmp_eq_iff_same]

end Store

namespace Disk

/-- Gives a file the next second as its time. -/
def touch (d : Disk) (p : Path) : Disk := { d with store := d.store.touch p }

/-- The disk without a file. -/
def without (d : Disk) (p : Path) : Disk :=
  { d with store := { d.store with files := Assoc.erase Path.cmp p.normalize d.store.files } }

theorem file?_without (d : Disk) (p q : Path) :
    (d.without p).store.file? q =
      if p.normalize.same q.normalize then none else d.store.file? q := by
  simp only [without, Store.file?, Assoc.find?_erase, Path.cmp_eq_iff_same]

/-- Whether two disks hold the same texts under the same paths and deny the same
operations, one file apart.  The times do not matter. -/
structure AgreesApart (g : Path) (d d' : Disk) : Prop where
  denials : d.denials = d'.denials
  contents : ∀ p, p.normalize ≠ g →
    (d.store.file? p).map (·.content) = (d'.store.file? p).map (·.content)

/-- What is read from a file depends on its content and on what is denied. -/
theorem read_eq_of_content {d d' : Disk} (hdenials : d.denials = d'.denials) {p : Path}
    (h : (d.store.file? p).map (·.content) = (d'.store.file? p).map (·.content)) :
    d.read p = d'.read p := by
  simp only [read, Store.read, hdenials]
  cases hd : d.store.file? p with
  | none =>
    cases hd' : d'.store.file? p with
    | none => rfl
    | some f' => simp [hd, hd'] at h
  | some f =>
    cases hd' : d'.store.file? p with
    | none => simp [hd, hd'] at h
    | some f' =>
      rw [hd, hd', Option.map_some, Option.map_some, Option.some.injEq] at h
      dsimp only
      rw [h]

theorem content_touch (d : Disk) (p q : Path) :
    ((d.touch p).store.file? q).map (·.content) = (d.store.file? q).map (·.content) := by
  rw [touch, Store.file?_touch, Option.map_map]
  congr 1
  funext f
  simp only [Function.comp_apply]
  split <;> rfl

theorem read?_touch (d : Disk) (p q : Path) : (d.touch p).read? q = d.read? q := by
  have hdenials : (d.touch p).denials = d.denials := rfl
  rw [read?, read?, read_eq_of_content hdenials (content_touch d p q)]

theorem read?_without (d : Disk) (p : Path) : (d.without p).read? p = none := by
  have hfile : (d.without p).store.file? p = none := by
    rw [file?_without, if_pos (Path.same_refl _)]
  simp only [read?, read, Store.read, hfile, guarded]
  split <;> rfl

theorem read?_of_not_hasFile {d : Disk} {p : Path} (h : d.hasFile p = false) : d.read? p = none := by
  cases hr : d.read? p with
  | none => rfl
  | some t => rw [hasFile_of_read? hr] at h; cases h

namespace AgreesApart

variable {g : Path} {d d' d'' : Disk}

theorem refl (g : Path) (d : Disk) : AgreesApart g d d := ⟨rfl, fun _ _ => rfl⟩

theorem trans (h : AgreesApart g d d') (h' : AgreesApart g d' d'') : AgreesApart g d d'' :=
  ⟨h.denials.trans h'.denials, fun p hp => (h.contents p hp).trans (h'.contents p hp)⟩

theorem read_eq (h : AgreesApart g d d') {p : Path} (hp : p.normalize ≠ g) :
    d.read p = d'.read p :=
  read_eq_of_content h.denials (h.contents p hp)

theorem hasFile_eq (h : AgreesApart g d d') {p : Path} (hp : p.normalize ≠ g) :
    d.hasFile p = d'.hasFile p := by
  have hcontent := congrArg Option.isSome (h.contents p hp)
  rwa [Option.isSome_map, Option.isSome_map] at hcontent

theorem touch (d : Disk) (p : Path) : AgreesApart g (d.touch p) d :=
  ⟨rfl, fun q _ => content_touch d p q⟩

theorem write {p : Path} {t : Text} (h : d.write p t = .ok d') :
    AgreesApart p.normalize d' d := by
  simp only [Disk.write, guarded] at h
  split at h
  · cases h
  · cases h
    refine ⟨rfl, fun q hq => ?_⟩
    rw [Store.file?_add, if_neg]
    intro hsame
    exact hq (Path.normalize_eq_of_same hsame)

theorem without (d : Disk) (p : Path) : AgreesApart p.normalize (d.without p) d := by
  refine ⟨rfl, fun q hq => ?_⟩
  rw [file?_without, if_neg]
  intro hsame
  exact hq (Path.normalize_eq_of_same hsame).symm

end AgreesApart

/-! ## Times -/

variable {d d' : Disk} {p q : Path}

theorem modified_eq (hdenials : d.denials = d'.denials)
    (hfile : d.store.file? q = d'.store.file? q) : d.modified q = d'.modified q := by
  simp only [modified, Store.modified, hdenials, hfile]

/-- Other files keep their times. -/
theorem modified_write {t : Text} (h : d.write p t = .ok d') (hq : q.normalize ≠ p.normalize) :
    d'.modified q = d.modified q := by
  have hdenials := (AgreesApart.write h).denials
  simp only [Disk.write, guarded] at h
  split at h
  · cases h
  · cases h
    refine modified_eq hdenials ?_
    rw [Store.file?_add, if_neg]
    intro hsame
    exact hq (Path.normalize_eq_of_same hsame)

theorem modified_without (d : Disk) (hq : q.normalize ≠ p.normalize) :
    (d.without p).modified q = d.modified q := by
  refine modified_eq (AgreesApart.without d p).denials ?_
  rw [file?_without, if_neg]
  intro hsame
  exact hq (Path.normalize_eq_of_same hsame).symm

/-- What was written is read again, unless reading is denied. -/
theorem read_write {t : Text} (h : d.write p t = .ok d') (hq : q.normalize = p.normalize) :
    d'.read? q = some t ∨ d'.read? q = none := by
  simp only [Disk.write, guarded] at h
  split at h
  · cases h
  · cases h
    simp only [read?, read, guarded, Store.read, Store.file?_add, hq, Path.same_refl, if_true]
    split
    · exact .inr rfl
    · exact .inl rfl

end Disk
end TestTransform

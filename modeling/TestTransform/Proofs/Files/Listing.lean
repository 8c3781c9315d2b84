/-
Which files a store lists.

The paths of a store that was made by writing, touching and removing files rise and are in normal
form.  A walk below a directory comes by the files whose components go on from those of the
directory and do not pass `node_modules` behind it.
-/
import TestTransform.Proofs.Files.Store
import TestTransform.Proofs.Order.Rising
import TestTransform.Proofs.Path.Below
import TestTransform.Proofs.Path.Order

namespace TestTransform

namespace Store

open TestTransform.Path

/-- A store that came about by writing, touching and removing files. -/
inductive Made : Store → Prop where
  | empty : Made {}
  | add {s : Store} (p : Path) (content : Text) : Made s → Made (s.add p content)
  | touch {s : Store} (p : Path) : Made s → Made (s.touch p)
  | remove {s s' : Store} {p : Path} : Made s → s.remove p = .ok s' → Made s'

/-- Whether the paths of a store rise and are in normal form. -/
structure InOrder (s : Store) : Prop where
  rising : Assoc.Rising Path.cmp s.files
  normal : ∀ p ∈ s.paths, p.normalize = p

section InOrder

variable {s s' : Store} {p : Path}

theorem InOrder.add (h : s.InOrder) (p : Path) (content : Text) : (s.add p content).InOrder := by
  refine ⟨h.rising.insert _ _, fun q hq => ?_⟩
  obtain ⟨e, he, rfl⟩ := List.mem_map.mp hq
  rcases Assoc.key_of_mem_insert he with heq | ⟨e', he', heq⟩
  · rw [heq]
    exact normalize_normalize p
  · rw [heq]
    exact h.normal _ (List.mem_map_of_mem he')

theorem InOrder.touch (h : s.InOrder) (p : Path) : (s.touch p).InOrder := by
  have hpaths : (s.touch p).paths = s.paths := by
    simp only [paths, Store.touch, Assoc.keys_modify]
  exact ⟨h.rising.modify p.normalize fun f => { f with modified := s.clock + 1 }, hpaths ▸ h.normal⟩

theorem InOrder.remove (h : s.InOrder) (hs : s.remove p = .ok s') : s'.InOrder := by
  rw [Store.remove] at hs
  split at hs
  · cases hs
    refine ⟨h.rising.erase _, fun q hq => ?_⟩
    obtain ⟨e, he, rfl⟩ := List.mem_map.mp hq
    exact h.normal _ (List.mem_map_of_mem (List.mem_of_mem_filter he))
  · cases hs

theorem Made.inOrder (h : Made s) : s.InOrder := by
  induction h with
  | empty => exact ⟨Assoc.rising_nil, nofun⟩
  | add p content _ ih => exact ih.add p content
  | touch p _ ih => exact ih.touch p
  | remove _ hs ih => exact ih.remove hs

end InOrder

/-! ## Walks -/

variable {dir p : Path}

/-- What a walk below a directory passes is what leads there from the directory. -/
theorem isListed_of_components (habs : dir.isAbsolute = true) (hp : p.normalize = p)
    {behind : List Component} (hbehind : p.components = dir.components ++ behind) :
    isListed dir p = !behind.contains (.normal "node_modules") := by
  have hroot := components_of_isAbsolute habs
  rw [hroot, List.cons_append] at hbehind
  obtain ⟨stack, hstack, rfl⟩ := exists_rooted (isAbsolute_of_components hbehind) hp
  rw [components_rooted hstack] at hbehind
  have hsplit := (List.cons.inj hbehind).2
  have hstep : ∀ c ∈ behind, c.IsStep := by
    intro c hc
    refine hstack.step c (List.mem_reverse.mp ?_)
    rw [hsplit]
    exact List.mem_append_right _ hc
  rw [isListed, relativeTo?_rooted hstack hsplit hroot]
  dsimp only
  rw [inNodeModules, components_ofComponents_steps hstep]

/-- A walk comes by what lies below the directory, unless it would have to enter
`node_modules`. -/
theorem isListed_iff (habs : dir.isAbsolute = true) (hp : p.normalize = p) :
    isListed dir p = true ↔ ∃ behind, p.components = dir.components ++ behind ∧
      Component.normal "node_modules" ∉ behind := by
  constructor
  · intro h
    have hbelow : p.isBelow dir = true := by
      rw [isListed, relativeTo?] at h
      by_contra hfalse
      rw [if_neg hfalse] at h
      cases h
    obtain ⟨behind, hbehind⟩ := isBelow_iff.mp hbelow
    rw [isListed_of_components habs hp hbehind.symm] at h
    exact ⟨behind, hbehind.symm, by simpa using h⟩
  · rintro ⟨behind, hbehind, hnode⟩
    rw [isListed_of_components habs hp hbehind]
    simpa using hnode

end Store

namespace Disk

/-- What a disk lists below a directory in normal form. -/
theorem mem_list_iff {d : Disk} (hd : d.store.InOrder) (hlist : d.denials.list = [])
    {dir p : Path} (hdir : dir.IsSettled) :
    p ∈ (d.view.list dir).toOption.getD [] ↔ p ∈ d.store.paths ∧
      ∃ behind, p.components = dir.components ++ behind ∧
        Component.normal "node_modules" ∉ behind := by
  have hview : d.view.list dir = .ok (d.store.list dir) := by
    show guarded d.denials.list dir (.ok (d.store.list dir)) = _
    rw [hlist]
    rfl
  rw [hview, Except.toOption, Option.getD_some, Store.list, hdir.normal, List.mem_filter]
  exact and_congr_right fun hp => Store.isListed_iff hdir.absolute (hd.normal p hp)

end Disk
end TestTransform

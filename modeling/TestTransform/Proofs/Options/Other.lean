/-
The untyped options can be told from what the options are written as.

They are kept sorted, so what is found under each name determines them, and none of them goes
by the name of a typed option.  So options that are written alike are the same.
-/
import TestTransform.Proofs.Json.Records
import TestTransform.Proofs.Options.Typed

namespace TestTransform
namespace CompilerOptions

/-- Whether the untyped options are such as a reader gives. -/
def IsProper (o : CompilerOptions) : Prop := Json.IsProper (.obj o.other)

theorem isProper_readField {o o' : CompilerOptions} {field : Text × Json}
    (h : o.readField field = .ok o') (ho : o.IsProper) (hfield : Json.IsProper field.2) :
    o'.IsProper := by
  rw [readField] at h
  split at h
  · rename_i s hs
    rw [IsProper, other_read (List.mem_of_find?_eq_some hs) h]
    exact ho
  · cases h
    exact Json.IsProper.insert ho hfield field.1

theorem isProper_foldlM {fields : Json.Fields} {o o' : CompilerOptions}
    (h : fields.foldlM readField o = .ok o') (ho : o.IsProper)
    (hfields : ∀ f ∈ fields, Json.IsProper f.2) : o'.IsProper :=
  Except.foldlM_keeps (fun f hf _ _ ho hread => isProper_readField hread ho (hfields f hf)) h ho

theorem isProper_ofFields {fields : Json.Fields} {o : CompilerOptions}
    (h : ofFields fields = .ok o) (hfields : Json.IsProper (.obj fields)) : o.IsProper :=
  isProper_foldlM h Json.isProper_obj_nil (Json.isProper_obj.mp hfields).2

/-- An untyped option is found under its name. -/
theorem field?_canon_other {o : CompilerOptions} (ho : o.IsProper) {name : Text}
    (hname : slot? name = none) :
    Json.field? name (Assoc.insertAll Text.cmp [] (Json.canonFields o.toFields)) =
      Assoc.find? Text.cmp name o.other := by
  obtain ⟨hrising, hvalues⟩ := Json.isProper_obj.mp ho
  have hcanon : o.other.map (fun f => (f.1, f.2.canon)) = o.other :=
    (List.map_congr_left fun f hf => by rw [(hvalues f hf).canon_eq]).trans (List.map_id' _)
  have hwritten : ∀ e ∈ (slots.filterMap fun s => (s.write o).map fun v => (s.name, v)).map
      (fun f : Text × Json => (f.1, f.2.canon)), Text.cmp name e.1 ≠ .eq := by
    intro e he heq
    obtain ⟨f, hf, rfl⟩ := List.mem_map.mp he
    obtain ⟨s, hs, hwrite⟩ := List.mem_filterMap.mp hf
    obtain ⟨v, -, rfl⟩ := Option.map_eq_some_iff.mp hwrite
    rw [slot?, List.find?_eq_none] at hname
    exact hname s hs (beq_iff_eq.mpr (Std.LawfulEqCmp.eq_of_compare heq).symm)
  rw [Json.field?, toFields, Json.canonFields_eq_map, List.map_append, hcanon,
    Assoc.insertAll_append, Assoc.find?_insertAll_of_distinct hrising.distinct,
    Assoc.find?_insertAll_of_ne hwritten]
  exact Option.or_none

theorem find?_other_of_slot {o : CompilerOptions} (ho : o.Separate) {name : Text} {s : Slot}
    (hname : slot? name = some s) : Assoc.find? Text.cmp name o.other = none := by
  by_contra hne
  obtain ⟨v, hv⟩ := Option.ne_none_iff_exists'.mp hne
  obtain ⟨k, hk, hmem⟩ := Assoc.mem_of_find? hv
  have hnone := ho _ hmem
  rw [← Std.LawfulEqCmp.eq_of_compare hk, hname] at hnone
  cases hnone

/-- What options are written as determines them. -/
theorem eq_of_compact {o p : CompilerOptions} (ho : o.Separate) (hp : p.Separate)
    (ho' : o.IsProper) (hp' : p.IsProper)
    (h : o.toJson.canon.compact = p.toJson.canon.compact) : o = p := by
  have htyped := typed_eq_of_compact ho hp h
  have hother : o.other = p.other := by
    obtain ⟨hrising, hvalues⟩ := Json.isProper_obj.mp ho'
    obtain ⟨hrising', hvalues'⟩ := Json.isProper_obj.mp hp'
    refine hrising.ext hrising' fun name => ?_
    cases hname : slot? name with
    | some s => rw [find?_other_of_slot ho hname, find?_other_of_slot hp hname]
    | none =>
      have hfield := Json.field?_of_canon h name
      rw [field?_canon_other ho' hname, field?_canon_other hp' hname] at hfield
      cases hfind : Assoc.find? Text.cmp name o.other with
      | none =>
        rw [hfind] at hfield
        exact (Option.map_eq_none_iff.mp hfield.symm).symm
      | some x =>
        rw [hfind] at hfield
        obtain ⟨y, hy, hcompact⟩ := Option.map_eq_some_iff.mp hfield.symm
        obtain ⟨k, -, hk⟩ := Assoc.mem_of_find? hfind
        obtain ⟨l, -, hl⟩ := Assoc.mem_of_find? hy
        rw [hy, Json.compact_injective x y (hvalues _ hk).2 (hvalues' _ hl).2 hcompact.symm]
  calc o = { o.typed with other := o.other } := rfl
    _ = { p.typed with other := p.other } := by rw [htyped, hother]
    _ = p := rfl

end CompilerOptions
end TestTransform

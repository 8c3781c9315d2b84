/-
The typed options can be told from what the options are written as.

Each typed option is written under a name of its own, which no untyped option has, so it is
found again in the object, and its text determines its value.
-/
import TestTransform.Options.Compiler
import TestTransform.Proofs.Except
import TestTransform.Proofs.Json.Canon

namespace TestTransform
namespace CompilerOptions

/-- The options without those that are kept as they were written. -/
def typed (o : CompilerOptions) : CompilerOptions := { o with other := [] }

theorem typed_forModuleSystem (o : CompilerOptions) (useEsm supportsEsm : Bool) :
    (o.forModuleSystem useEsm supportsEsm).typed = o.typed.forModuleSystem useEsm supportsEsm := by
  rw [forModuleSystem, forModuleSystem]
  by_cases h : (useEsm && supportsEsm) = true
  · rw [if_pos h, if_pos h]
    rfl
  · rw [if_neg h, if_neg h]
    rfl

/-! ## Slots -/

theorem other_of_map {α : Type} {x : Except OptionsError α} {set : α → CompilerOptions}
    {o o' : CompilerOptions} (h : x.map set = .ok o')
    (hset : ∀ v, (set v).other = o.other) : o'.other = o.other := by
  cases x with
  | error e => cases h
  | ok v =>
    have hv : set v = o' := Except.ok.inj h
    rw [← hv, hset]

/-- Reading a typed option leaves the untyped ones alone. -/
theorem other_read {s : Slot} (hs : s ∈ slots) {j : Json} {o o' : CompilerOptions}
    (h : s.read j o = .ok o') : o'.other = o.other := by
  simp only [slots, List.mem_cons, List.not_mem_nil, or_false] at hs
  rcases hs with rfl | rfl | rfl | rfl | rfl | rfl | rfl | rfl | rfl | rfl | rfl | rfl | rfl |
    rfl | rfl | rfl | rfl | rfl | rfl | rfl | rfl <;> exact other_of_map h fun _ => rfl

/-- A typed option is written as a text or a switch, so sorting leaves it as it is. -/
theorem canon_write {s : Slot} (hs : s ∈ slots) {o : CompilerOptions} {j : Json}
    (h : s.write o = some j) : (∃ t, j = .str t) ∨ ∃ b, j = .bool b := by
  have hmap : ∀ {α : Type} {f : α → Json} {x : Option α}, x.map f = some j →
      (∀ v, (∃ t, f v = .str t) ∨ ∃ b, f v = .bool b) → (∃ t, j = .str t) ∨ ∃ b, j = .bool b := by
    intro α f x hx hf
    obtain ⟨v, -, rfl⟩ := Option.map_eq_some_iff.mp hx
    exact hf v
  simp only [slots, List.mem_cons, List.not_mem_nil, or_false] at hs
  rcases hs with rfl | rfl | rfl | rfl | rfl | rfl | rfl | rfl | rfl | rfl | rfl | rfl | rfl |
    rfl | rfl | rfl | rfl | rfl | rfl | rfl | rfl <;>
    first
      | exact hmap h fun v => .inl ⟨_, rfl⟩
      | exact hmap h fun v => .inr ⟨_, rfl⟩

theorem target_text_injective {a b : ScriptTarget} (h : a.text = b.text) : a = b := by
  revert h
  cases a <;> cases b <;> decide

theorem module_text_injective {a b : ModuleKind} (h : a.text = b.text) : a = b := by
  revert h
  cases a <;> cases b <;> decide

theorem map_eq_iff {α : Type} {f : α → Json} (hf : ∀ v w, f v = f w → v = w) {x y : Option α} :
    x.map f = y.map f ↔ x = y :=
  ⟨fun h => Option.map_injective (fun v w hvw => hf v w hvw) h, fun h => h ▸ rfl⟩

/-- Options that write all slots alike have the same typed options. -/
theorem typed_eq_of_write {o p : CompilerOptions} (h : ∀ s ∈ slots, s.write o = s.write p) :
    o.typed = p.typed := by
  have hbool : ∀ {x y : Option Bool}, x.map Json.bool = y.map Json.bool ↔ x = y :=
    map_eq_iff fun v w hvw => Json.bool.inj hvw
  have hpath : ∀ {x y : Option Path},
      (x.map fun p => Json.str p.text) = (y.map fun p => Json.str p.text) ↔ x = y :=
    map_eq_iff fun v w hvw => congrArg Path.mk (Json.str.inj hvw)
  have htext : ∀ {x y : Option Text}, x.map Json.str = y.map Json.str ↔ x = y :=
    map_eq_iff fun v w hvw => Json.str.inj hvw
  have htarget : ∀ {x y : Option ScriptTarget},
      (x.map fun v => Json.str v.text) = (y.map fun v => Json.str v.text) ↔ x = y :=
    map_eq_iff fun v w hvw => target_text_injective (Json.str.inj hvw)
  have hmodule : ∀ {x y : Option ModuleKind},
      (x.map fun v => Json.str v.text) = (y.map fun v => Json.str v.text) ↔ x = y :=
    map_eq_iff fun v w hvw => module_text_injective (Json.str.inj hvw)
  simp only [slots, List.forall_mem_cons, flag, pathSlot, hbool, hpath, htext, htarget,
    hmodule] at h
  simp only [typed, h]

/-! ## The names of slots -/

theorem names_distinct : slots.Pairwise fun s s' => Text.cmp s.name s'.name ≠ .eq := by
  decide +kernel

theorem find?_written_of_ne {ss : List Slot} {name : Text}
    (h : ∀ s ∈ ss, Text.cmp name s.name ≠ .eq) (o : CompilerOptions) :
    Assoc.find? Text.cmp name
      (ss.filterMap fun s => (s.write o).map fun v => (s.name, v)) = none := by
  induction ss with
  | nil => rfl
  | cons s ss ih =>
    have hrest := ih fun s' hs' => h s' (List.mem_cons_of_mem _ hs')
    rw [List.filterMap_cons]
    cases s.write o with
    | none => exact hrest
    | some v =>
      show Assoc.find? Text.cmp name ((s.name, v) :: _) = none
      rw [Assoc.find?_cons_ne (h s List.mem_cons_self)]
      exact hrest

theorem find?_written {ss : List Slot}
    (hd : ss.Pairwise fun s s' => Text.cmp s.name s'.name ≠ .eq) {s : Slot} (hs : s ∈ ss)
    (o : CompilerOptions) :
    Assoc.find? Text.cmp s.name
      (ss.filterMap fun s => (s.write o).map fun v => (s.name, v)) = s.write o := by
  induction ss with
  | nil => cases hs
  | cons s' ss ih =>
    have hsplit := List.pairwise_cons.mp hd
    rw [List.filterMap_cons]
    rcases List.mem_cons.mp hs with rfl | hs
    · cases hw : s.write o with
      | none => exact find?_written_of_ne hsplit.1 o
      | some v => exact Assoc.find?_cons_eq Std.ReflCmp.compare_self
    · have hrest := ih hsplit.2 hs
      cases s'.write o with
      | none => exact hrest
      | some v =>
        have hne : Text.cmp s.name s'.name ≠ .eq := by
          intro heq
          exact hsplit.1 s hs (Std.OrientedCmp.eq_symm heq)
        show Assoc.find? Text.cmp s.name ((s'.name, v) :: _) = s.write o
        rw [Assoc.find?_cons_ne hne]
        exact hrest

/-! ## Untyped options -/

/-- Whether no untyped option has the name of a typed one. -/
def Separate (o : CompilerOptions) : Prop := ∀ e ∈ o.other, slot? e.1 = none

theorem separate_readField {o o' : CompilerOptions} {field : Text × Json}
    (h : o.readField field = .ok o') (ho : o.Separate) : o'.Separate := by
  rw [readField] at h
  split at h
  · rename_i s hs
    have hother := other_read (List.mem_of_find?_eq_some hs) h
    rw [Separate, hother]
    exact ho
  · rename_i hnone
    cases h
    intro e he
    rcases Assoc.mem_of_mem_insert he with he | ⟨hk, -⟩
    · exact ho e he
    · rw [← Std.LawfulEqCmp.eq_of_compare hk]
      exact hnone

theorem separate_foldlM {fields : Json.Fields} {o o' : CompilerOptions}
    (h : fields.foldlM readField o = .ok o') (ho : o.Separate) : o'.Separate :=
  Except.foldlM_keeps (fun _ _ _ _ ho hread => separate_readField hread ho) h ho

theorem separate_ofFields {fields : Json.Fields} {o : CompilerOptions}
    (h : ofFields fields = .ok o) : o.Separate :=
  separate_foldlM h fun e he => by cases he

/-! ## Written options -/

theorem written_distinct (o : CompilerOptions) :
    (slots.filterMap fun s => (s.write o).map fun v => (s.name, v)).Pairwise
      fun a b => Text.cmp a.1 b.1 ≠ .eq := by
  refine List.Pairwise.filterMap _ ?_ names_distinct
  intro s s' hne a ha b hb
  obtain ⟨v, -, rfl⟩ := Option.map_eq_some_iff.mp ha
  obtain ⟨v', -, rfl⟩ := Option.map_eq_some_iff.mp hb
  exact hne

/-- A typed option is found under its name. -/
theorem field?_canon {o : CompilerOptions} (ho : o.Separate) {s : Slot} (hs : s ∈ slots) :
    Json.field? s.name (Assoc.insertAll Text.cmp [] (Json.canonFields o.toFields)) =
      s.write o := by
  have hother : ∀ e ∈ o.other.map fun f => (f.1, f.2.canon), Text.cmp s.name e.1 ≠ .eq := by
    intro e he heq
    obtain ⟨f, hf, rfl⟩ := List.mem_map.mp he
    have hslot := ho f hf
    rw [← Std.LawfulEqCmp.eq_of_compare heq, slot?, List.find?_eq_none] at hslot
    exact hslot s hs (beq_self_eq_true s.name)
  have hdistinct := (written_distinct o).map (fun f : Text × Json => (f.1, f.2.canon))
    (S := fun a b => Text.cmp a.1 b.1 ≠ .eq) fun a b hne => hne
  rw [Json.field?, toFields, Json.canonFields_eq_map, List.map_append, Assoc.insertAll_append,
    Assoc.find?_insertAll_of_ne hother, Assoc.find?_insertAll_of_distinct hdistinct,
    Assoc.find?_map, find?_written names_distinct hs]
  cases hw : s.write o with
  | none => rfl
  | some j =>
    rcases canon_write hs hw with ⟨t, rfl⟩ | ⟨b, rfl⟩ <;> rfl

/-- What options are written as determines the typed ones. -/
theorem typed_eq_of_compact {o p : CompilerOptions} (ho : o.Separate) (hp : p.Separate)
    (h : o.toJson.canon.compact = p.toJson.canon.compact) : o.typed = p.typed := by
  apply typed_eq_of_write
  intro s hs
  have hfield := Json.field?_of_canon h s.name
  rw [field?_canon ho hs, field?_canon hp hs] at hfield
  cases hw : s.write o with
  | none =>
    rw [hw] at hfield
    exact (Option.map_eq_none_iff.mp hfield.symm).symm
  | some j =>
    rw [hw, Option.map_some] at hfield
    obtain ⟨j', hj', hcompact⟩ := Option.map_eq_some_iff.mp hfield.symm
    have hsame : j' = j := by
      rcases canon_write hs hw with ⟨t, rfl⟩ | ⟨b, rfl⟩
      · exact Json.eq_of_compact_str hcompact.symm
      · exact Json.eq_of_compact_bool hcompact.symm
    rw [hj', hsame]

end CompilerOptions
end TestTransform

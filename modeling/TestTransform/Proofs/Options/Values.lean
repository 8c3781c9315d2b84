/-
The values of options in the object that they are written as.

Reading the fields of an object one after another gives each option the value of its field, in
the spelling that typed options have, and leaves all others alone.
-/
import TestTransform.Proofs.Options.Other

namespace TestTransform

theorem Json.field?_cons (name : Text) (field : Text × Json) (fields : Fields) :
    field? name (field :: fields) =
      if name = field.1 then some field.2 else field? name fields := by
  by_cases h : name = field.1
  · have hself : Text.cmp name field.1 = .eq := h ▸ Std.ReflCmp.compare_self
    rw [if_pos h, field?, Assoc.find?_cons_eq hself]
  · have hne : Text.cmp name field.1 ≠ .eq := fun heq => h (Std.LawfulEqCmp.eq_of_compare heq)
    rw [if_neg h, field?, field?, Assoc.find?_cons_ne hne]

namespace CompilerOptions

/-! ## Typed values -/

/-- What becomes of the value of an option.  Typed options have no `null`, and the target and
the module system have one spelling each. -/
def typedValue? (name : Text) (value : Json) : Option Json :=
  if (slot? name).isNone then some value
  else
    match value with
    | .null => none
    | .str t =>
      if name = "target".toList then (ScriptTarget.ofText? t).map fun v => .str v.text
      else if name = "module".toList then (ModuleKind.ofText? t).map fun v => .str v.text
      else some (.str t)
    | j => some j

attribute [local simp] typedValue? in
theorem typedValue?_null {name : Text} (h : (slot? name).isSome) :
    typedValue? name .null = none := by
  obtain ⟨s, hs⟩ := Option.isSome_iff_exists.mp h
  simp [hs]

theorem typedValue?_of_slot?_eq_none {name : Text} (h : slot? name = none) (value : Json) :
    typedValue? name value = some value := by
  simp [typedValue?, h]

theorem typedValue?_bool {name : Text} (h : (slot? name).isSome) (b : Bool) :
    typedValue? name (.bool b) = some (.bool b) := by
  obtain ⟨s, hs⟩ := Option.isSome_iff_exists.mp h
  simp [typedValue?, hs]

theorem typedValue?_str {name : Text} (h : (slot? name).isSome) (ht : name ≠ "target".toList)
    (hm : name ≠ "module".toList) (t : Text) : typedValue? name (.str t) = some (.str t) := by
  obtain ⟨s, hs⟩ := Option.isSome_iff_exists.mp h
  simp only [typedValue?, hs, Option.isNone_some, Bool.false_eq_true, if_false, ht, hm]

/-! ## Reading a slot -/

theorem map_eq_of_readNullable {α : Type} {f : Json → Except OptionsError α} {g : α → Json}
    {name : Text} {j : Json} {v : Option α} (h : readNullable f j = .ok v)
    (hnull : typedValue? name .null = none)
    (hf : ∀ a, f j = .ok a → typedValue? name j = some (g a)) :
    v.map g = typedValue? name j := by
  cases j with
  | null =>
    cases h
    exact hnull.symm
  | bool | num | str | arr | obj =>
    rw [readNullable] at h
    · obtain ⟨a, ha, rfl⟩ := Except.map_eq_ok.mp h
      exact (hf a ha).symm
    · simp


theorem write_of_read_flag {name : Text} {get : CompilerOptions → Option Bool}
    {set : CompilerOptions → Option Bool → CompilerOptions} (hname : (slot? name).isSome)
    (hset : ∀ o v, get (set o v) = v) {j : Json} {o o' : CompilerOptions}
    (h : (flag name get set).read j o = .ok o') :
    (flag name get set).write o' = typedValue? name j := by
  obtain ⟨v, hv, rfl⟩ := Except.map_eq_ok.mp h
  refine (congrArg (Option.map Json.bool) (hset o v)).trans
    (map_eq_of_readNullable hv (typedValue?_null hname) fun b hb => ?_)
  cases j with
  | bool =>
    cases hb
    exact typedValue?_bool hname _
  | null | num | str | arr | obj => cases hb

theorem map_str_of_readText {name : Text} (hname : (slot? name).isSome)
    (ht : name ≠ "target".toList) (hm : name ≠ "module".toList) {j : Json} {v : Option Text}
    (h : readNullable readText j = .ok v) : v.map Json.str = typedValue? name j := by
  refine map_eq_of_readNullable h (typedValue?_null hname) fun t hj => ?_
  cases j with
  | str =>
    cases hj
    exact typedValue?_str hname ht hm _
  | null | bool | num | arr | obj => cases hj

theorem write_of_read_path {name : Text} {get : CompilerOptions → Option Path}
    {set : CompilerOptions → Option Path → CompilerOptions} (hname : (slot? name).isSome)
    (ht : name ≠ "target".toList) (hm : name ≠ "module".toList) (hset : ∀ o v, get (set o v) = v)
    {j : Json} {o o' : CompilerOptions} (h : (pathSlot name get set).read j o = .ok o') :
    (pathSlot name get set).write o' = typedValue? name j := by
  obtain ⟨v, hv, rfl⟩ := Except.map_eq_ok.mp h
  rw [← map_str_of_readText hname ht hm hv]
  refine (congrArg (Option.map fun p : Path => Json.str p.text) (hset o _)).trans ?_
  rw [Option.map_map]
  rfl

theorem map_str_of_read_sourceRoot {j : Json} {o o' : CompilerOptions}
    (h : ((readNullable readText j).map fun v => { o with sourceRoot := v }) = .ok o') :
    o'.sourceRoot.map Json.str = typedValue? "sourceRoot" j := by
  obtain ⟨v, hv, rfl⟩ := Except.map_eq_ok.mp h
  exact map_str_of_readText rfl (by decide) (by decide) hv

theorem map_text_of_read_target {j : Json} {o o' : CompilerOptions}
    (h : ((readNullable readTarget j).map fun v => { o with target := v }) = .ok o') :
    (o'.target.map fun v => Json.str v.text) = typedValue? "target" j := by
  obtain ⟨v, hv, rfl⟩ := Except.map_eq_ok.mp h
  refine map_eq_of_readNullable hv rfl fun target hj => ?_
  cases j with
  | str t =>
    rw [readTarget] at hj
    split at hj
    · rename_i hread
      cases hj
      have hslot : (slot? "target".toList).isNone = false := rfl
      simp only [typedValue?, hslot, Bool.false_eq_true, if_false, if_true, hread, Option.map_some]
    · cases hj
  | null | bool | num | arr | obj => cases hj

theorem map_text_of_read_module {j : Json} {o o' : CompilerOptions}
    (h : ((readNullable readModule j).map fun v => { o with module := v }) = .ok o') :
    (o'.module.map fun v => Json.str v.text) = typedValue? "module" j := by
  obtain ⟨v, hv, rfl⟩ := Except.map_eq_ok.mp h
  refine map_eq_of_readNullable hv rfl fun kind hj => ?_
  cases j with
  | str t =>
    rw [readModule] at hj
    split at hj
    · rename_i hread
      cases hj
      have hslot : (slot? "module".toList).isNone = false := rfl
      have hne : "module".toList ≠ "target".toList := by decide
      simp only [typedValue?, hslot, Bool.false_eq_true, if_false, hne, if_true, hread,
        Option.map_some]
    · cases hj
  | null | bool | num | arr | obj => cases hj

/-- A typed option is written as what its value becomes that it was read from. -/
theorem write_of_read {s : Slot} (hs : s ∈ slots) {j : Json} {o o' : CompilerOptions}
    (h : s.read j o = .ok o') : s.write o' = typedValue? s.name j := by
  simp only [slots, List.mem_cons, List.not_mem_nil, or_false] at hs
  rcases hs with rfl | rfl | rfl | rfl | rfl | rfl | rfl | rfl | rfl | rfl | rfl | rfl | rfl |
    rfl | rfl | rfl | rfl | rfl | rfl | rfl | rfl <;>
  first
    | exact write_of_read_flag rfl (fun _ _ => rfl) h
    | exact write_of_read_path rfl (by decide) (by decide) (fun _ _ => rfl) h
    | exact map_str_of_read_sourceRoot h
    | exact map_text_of_read_target h
    | exact map_text_of_read_module h

/-- Reading a typed option leaves the other typed ones alone. -/
theorem write_of_read_of_ne {s s' : Slot} (hs : s ∈ slots) (hs' : s' ∈ slots)
    (hne : s'.name ≠ s.name) {j : Json} {o o' : CompilerOptions} (h : s.read j o = .ok o') :
    s'.write o' = s'.write o := by
  simp only [slots, List.mem_cons, List.not_mem_nil, or_false] at hs
  -- Each slot reads into a field of its own.
  rcases hs with rfl | rfl | rfl | rfl | rfl | rfl | rfl | rfl | rfl | rfl | rfl | rfl | rfl |
    rfl | rfl | rfl | rfl | rfl | rfl | rfl | rfl <;>
  obtain ⟨v, -, rfl⟩ := Except.map_eq_ok.mp h <;>
  simp only [slots, List.mem_cons, List.not_mem_nil, or_false] at hs' <;>
  rcases hs' with rfl | rfl | rfl | rfl | rfl | rfl | rfl | rfl | rfl | rfl | rfl | rfl | rfl |
    rfl | rfl | rfl | rfl | rfl | rfl | rfl | rfl <;>
  first | rfl | exact absurd rfl hne

/-! ## Reading an object -/

theorem slot?_of_mem {s : Slot} (hs : s ∈ slots) : slot? s.name = some s := by
  simp only [slots, List.mem_cons, List.not_mem_nil, or_false] at hs
  rcases hs with rfl | rfl | rfl | rfl | rfl | rfl | rfl | rfl | rfl | rfl | rfl | rfl | rfl |
    rfl | rfl | rfl | rfl | rfl | rfl | rfl | rfl <;> rfl

theorem mem_of_slot? {name : Text} {s : Slot} (h : slot? name = some s) :
    s ∈ slots ∧ s.name = name := by
  refine ⟨List.mem_of_find?_eq_some h, ?_⟩
  have hname := List.find?_some (p := fun s : Slot => s.name == name) h
  exact beq_iff_eq.mp hname

theorem field?_toFields_slot {o : CompilerOptions} (ho : o.Separate) {s : Slot} (hs : s ∈ slots) :
    Json.field? s.name o.toFields = s.write o := by
  rw [Json.field?, toFields, Assoc.find?_append, find?_written names_distinct hs,
    find?_other_of_slot ho (slot?_of_mem hs), Option.or_none]

theorem field?_toFields_other {name : Text} (hname : slot? name = none) (o : CompilerOptions) :
    Json.field? name o.toFields = Assoc.find? Text.cmp name o.other := by
  have hne : ∀ s ∈ slots, Text.cmp name s.name ≠ .eq := by
    intro s hs heq
    rw [Std.LawfulEqCmp.eq_of_compare heq, slot?_of_mem hs] at hname
    cases hname
  rw [Json.field?, toFields, Assoc.find?_append, find?_written_of_ne hne, Option.none_or]

theorem write_with_other {s : Slot} (hs : s ∈ slots) (o : CompilerOptions) (other : Json.Fields) :
    s.write { o with other } = s.write o := by
  simp only [slots, List.mem_cons, List.not_mem_nil, or_false] at hs
  rcases hs with rfl | rfl | rfl | rfl | rfl | rfl | rfl | rfl | rfl | rfl | rfl | rfl | rfl |
    rfl | rfl | rfl | rfl | rfl | rfl | rfl | rfl <;> rfl

/-- A field that is read gives its option a value and leaves all other options alone. -/
theorem field?_readField {o o' : CompilerOptions} {field : Text × Json} (ho : o.Separate)
    (h : o.readField field = .ok o') (name : Text) :
    Json.field? name o'.toFields =
      if name = field.1 then typedValue? name field.2 else Json.field? name o.toFields := by
  have ho' : o'.Separate := separate_readField h ho
  obtain ⟨k, j⟩ := field
  rw [readField] at h
  cases hk : slot? k with
  | some s =>
    rw [hk] at h
    obtain ⟨hs, rfl⟩ := mem_of_slot? hk
    by_cases hname : name = s.name
    · rw [if_pos hname, hname, field?_toFields_slot ho' hs]
      exact write_of_read hs h
    · rw [if_neg hname]
      cases hslot : slot? name with
      | some s' =>
        obtain ⟨hs', rfl⟩ := mem_of_slot? hslot
        rw [field?_toFields_slot ho' hs', field?_toFields_slot ho hs']
        exact write_of_read_of_ne hs hs' hname h
      | none =>
        rw [field?_toFields_other hslot, field?_toFields_other hslot, other_read hs h]
  | none =>
    rw [hk] at h
    cases h
    by_cases hname : name = k
    · subst hname
      rw [if_pos rfl, field?_toFields_other hk, Assoc.find?_insert_self,
        typedValue?_of_slot?_eq_none hk]
    · rw [if_neg hname]
      cases hslot : slot? name with
      | some s' =>
        obtain ⟨hs', rfl⟩ := mem_of_slot? hslot
        rw [field?_toFields_slot ho' hs', field?_toFields_slot ho hs', write_with_other hs']
      | none =>
        have hne : Text.cmp name k ≠ .eq := fun heq => hname (Std.LawfulEqCmp.eq_of_compare heq)
        rw [field?_toFields_other hslot, field?_toFields_other hslot,
          Assoc.find?_insert_of_ne hne]

theorem field?_foldlM {fields : Json.Fields} {o o' : CompilerOptions} (ho : o.Separate)
    (hfields : fields.Pairwise fun a b => Text.cmp a.1 b.1 ≠ .eq)
    (h : fields.foldlM readField o = .ok o') (name : Text) :
    Json.field? name o'.toFields =
      (Json.field? name fields).elim (Json.field? name o.toFields) (typedValue? name) := by
  induction fields generalizing o with
  | nil =>
    cases h
    rfl
  | cons field fields ih =>
    have hrest := List.pairwise_cons.mp hfields
    rw [List.foldlM_cons] at h
    obtain ⟨o₁, hfield, h⟩ := Except.bind_eq_ok.mp h
    rw [ih (separate_readField hfield ho) hrest.2 h, field?_readField ho hfield, Json.field?_cons]
    by_cases hname : name = field.1
    · -- No later field has this name.
      have hnone : Json.field? name fields = none := by
        rw [hname, Json.field?]
        exact Assoc.find?_eq_none hrest.1
      rw [hnone, if_pos hname, if_pos hname]
      rfl
    · rw [if_neg hname, if_neg hname]

/-- Options have the values of their fields, in whatever order these stand. -/
theorem field?_ofFields {fields : Json.Fields} {o : CompilerOptions}
    (hfields : fields.Pairwise fun a b => Text.cmp a.1 b.1 ≠ .eq) (h : ofFields fields = .ok o)
    (name : Text) :
    Json.field? name o.toFields = (Json.field? name fields).bind (typedValue? name) := by
  rw [field?_foldlM (o := {}) (fun e he => by cases he) hfields h]
  cases Json.field? name fields <;> rfl

end CompilerOptions
end TestTransform

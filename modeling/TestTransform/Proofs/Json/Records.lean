/-
Records, and the values that they are read from.

The values of a record are parts of what it is read from, so they are such as a reader gives
if that is.  Values of that kind may be merged and changed one by one without leaving it.
-/
import TestTransform.Json.Decode
import TestTransform.Proofs.Json.Reread

namespace TestTransform

namespace Json

open Form

/-! ## Known fields -/

/-- Fields with known names are read like all others. -/
theorem knownFields?_formOf {depth : Nat} {names : List Text} {fs : Fields}
    (hnames : ∀ f ∈ fs, names.contains f.1 = true) (h : Rereads (.obj fs))
    (hd : nesting (.obj fs) ≤ depth) :
    knownFields? depth names (formOf (.obj fs)) = some (.obj fs) := by
  rw [nesting] at hd
  obtain ⟨depth, rfl⟩ : ∃ n, depth = n + 1 := ⟨depth - 1, by omega⟩
  have hgo : ∀ gs : Fields, (∀ f ∈ gs, names.contains f.1 = true ∧ Rereads f.2 ∧
      nesting f.2 ≤ depth) → knownFields?.go names depth (fieldForms gs) = some gs := by
    intro gs
    induction gs with
    | nil => intro _; rfl
    | cons g gs ih =>
      intro hgs
      obtain ⟨⟨hname, hreread, hnest⟩, hrest⟩ := List.forall_mem_cons.mp hgs
      obtain ⟨k, x⟩ := g
      rw [fieldForms, knownFields?.go, text?_map_letterOf]
      dsimp only
      rw [if_pos hname, value?_formOf x hreread hnest, ih hrest]
  rw [formOf, knownFields?, hgo fs fun f hf => ⟨hnames f hf, rereads_obj.mp h f hf,
    fieldNesting_le.mp (by omega) f hf⟩]
  rfl

/-- A value with known fields only is such as a reader gives. -/
theorem of_knownFields? {depth : Nat} {names : List Text} {f : Form} {j : Json}
    (h : knownFields? depth names f = some j) : IsMachine j ∧ nesting j ≤ depth := by
  have hgo : ∀ (depth : Nat) (fs : List (List Letter × Form)) (vs : Fields),
      knownFields?.go names depth fs = some vs → ∀ v ∈ vs, IsMachine v.2 ∧ nesting v.2 ≤ depth := by
    intro depth fs
    induction fs with
    | nil =>
      intro vs hvs v hv
      cases hvs
      cases hv
    | cons f fs ih =>
      intro vs hvs
      obtain ⟨name, x⟩ := f
      rw [knownFields?.go] at hvs
      split at hvs
      · cases hvs
      · split at hvs
        · split at hvs
          · rename_i v vs' hv hvs'
            cases hvs
            exact List.forall_mem_cons.mpr
              ⟨⟨isMachine_of_value? x hv, nesting_of_value? x hv⟩, ih _ hvs'⟩
          · cases hvs
        · exact ih vs hvs
  cases f with
  | obj fs =>
    cases depth with
    | zero => cases h
    | succ depth =>
      rw [knownFields?] at h
      obtain ⟨vs, hvs, rfl⟩ := Option.map_eq_some_iff.mp h
      have hvalues := hgo depth fs vs hvs
      exact ⟨isMachine_obj.mpr fun v hv => (hvalues v hv).1,
        Nat.succ_le_succ (fieldNesting_le.mpr fun v hv => (hvalues v hv).2)⟩
  | null | bool | num | str | arr => exact ⟨isMachine_of_value? _ h, nesting_of_value? _ h⟩

/-- Whether a value is part of another one, one level down. -/
def Contains (j x : Json) : Prop :=
  (∃ fs, j = .obj fs ∧ ∃ f ∈ fs, f.2 = x) ∨ ∃ xs, j = .arr xs ∧ x ∈ xs

theorem Contains.isMachine {j x : Json} (h : Contains j x) (hj : IsMachine j) : IsMachine x := by
  rcases h with ⟨fs, rfl, f, hf, rfl⟩ | ⟨xs, rfl, hx⟩
  · exact isMachine_obj.mp hj f hf
  · exact isMachine_arr.mp hj x hx

theorem itemNesting_le {xs : List Json} {depth : Nat} :
    itemNesting xs ≤ depth ↔ ∀ x ∈ xs, nesting x ≤ depth := by
  induction xs with
  | nil => simp [itemNesting]
  | cons x xs ih => rw [itemNesting, max_le_iff, ih, List.forall_mem_cons]

theorem Contains.nesting_lt {j x : Json} (h : Contains j x) : nesting x < nesting j := by
  rcases h with ⟨fs, rfl, f, hf, rfl⟩ | ⟨xs, rfl, hx⟩
  · exact Nat.lt_succ_of_le (fieldNesting_le.mp (Nat.le_refl _) f hf)
  · exact Nat.lt_succ_of_le (itemNesting_le.mp (Nat.le_refl _) x hx)

theorem contains_of_positional? {n : Nat} {xs : List Json} {vs : List (Option Json)}
    (h : positional? n xs = some vs) : ∀ x, some x ∈ vs → x ∈ xs := by
  induction n generalizing xs vs with
  | zero =>
    cases xs with
    | nil =>
      cases h
      intro x hx
      cases hx
    | cons y ys => cases h
  | succ n ih =>
    cases xs with
    | nil =>
      obtain ⟨ws, hws, rfl⟩ := Option.map_eq_some_iff.mp h
      intro x hx
      exact ih hws x ((List.mem_cons.mp hx).resolve_left (by simp))
    | cons y ys =>
      obtain ⟨ws, hws, rfl⟩ := Option.map_eq_some_iff.mp h
      intro x hx
      rcases List.mem_cons.mp hx with hx | hx
      · rw [Option.some.inj hx]
        exact List.mem_cons_self
      · exact List.mem_cons_of_mem _ (ih hws x hx)

/-- The values of a record are parts of what it is read from. -/
theorem contains_of_record? {names : List (List Text)} {j : Json} {vs : List (Option Json)}
    (h : record? names j = some vs) : ∀ x, some x ∈ vs → Contains j x := by
  have hfields : ∀ (fs : Fields) (names : List (List Text)) (vs : List (Option Json)),
      names.mapM (uniqueField? fs) = some vs → ∀ x, some x ∈ vs → ∃ f ∈ fs, f.2 = x := by
    intro fs names
    induction names with
    | nil =>
      intro vs hvs x hx
      cases hvs
      cases hx
    | cons name names ih =>
      intro vs hvs x hx
      rw [List.mapM_cons] at hvs
      obtain ⟨v, hv, hvs⟩ := Option.bind_eq_some_iff.mp hvs
      obtain ⟨ws, hws, hvs⟩ := Option.bind_eq_some_iff.mp hvs
      cases hvs
      rcases List.mem_cons.mp hx with hx | hx
      · subst hx
        rw [uniqueField?] at hv
        split at hv
        · cases hv
        · rename_i y hy
          cases hv
          have hmem : x ∈ namedValues name fs := by
            rw [hy]
            exact List.mem_singleton_self x
          obtain ⟨f, hf, hvalue⟩ := List.mem_map.mp hmem
          exact ⟨f, (List.mem_filter.mp hf).1, hvalue⟩
        · cases hv
      · exact ih ws hws x hx
  cases j with
  | obj fs => exact fun x hx => .inl ⟨fs, rfl, hfields fs names vs h x hx⟩
  | arr xs => exact fun x hx => .inr ⟨xs, rfl, contains_of_positional? h x hx⟩
  | null | bool | num | str => cases h

/-! ## Values such as a reader gives -/

/-- Whether a value is sorted and has such numbers as a reader gives. -/
def IsProper (j : Json) : Prop := IsCanonical j ∧ IsMachine j

theorem isProper_of_ofText? {t : Text} {j : Json} (h : ofText? t = some j) : IsProper j := by
  refine ⟨?_, isMachine_of_ofText? h⟩
  obtain ⟨raw, -, rfl⟩ := Option.map_eq_some_iff.mp h
  exact isCanonical_canon raw

theorem IsProper.canon_eq {j : Json} (h : IsProper j) : canon j = j := h.1

theorem isProper_obj {fs : Fields} :
    IsProper (.obj fs) ↔ Assoc.Rising Text.cmp fs ∧ ∀ f ∈ fs, IsProper f.2 := by
  constructor
  · rintro ⟨hsorted, hmachine⟩
    exact ⟨hsorted.rising, fun f hf => ⟨hsorted.values f hf, isMachine_obj.mp hmachine f hf⟩⟩
  · rintro ⟨hrising, hvalues⟩
    exact ⟨isCanonical_obj hrising fun f hf => (hvalues f hf).1,
      isMachine_obj.mpr fun f hf => (hvalues f hf).2⟩

theorem isProper_obj_nil : IsProper (.obj []) :=
  isProper_obj.mpr ⟨Assoc.rising_nil, fun f hf => by cases hf⟩

theorem IsCanonical.items {xs : List Json} (h : IsCanonical (.arr xs)) :
    ∀ x ∈ xs, IsCanonical x := by
  rw [IsCanonical, canon, canonItems_eq_map] at h
  intro x hx
  have hmap : xs.map canon = xs.map id := by rw [List.map_id, Json.arr.inj h]
  exact List.map_inj_left.mp hmap x hx

theorem Contains.isProper {j x : Json} (h : Contains j x) (hj : IsProper j) : IsProper x := by
  refine ⟨?_, h.isMachine hj.2⟩
  rcases h with ⟨fs, rfl, f, hf, rfl⟩ | ⟨xs, rfl, hx⟩
  · exact hj.1.values f hf
  · exact hj.1.items x hx

theorem IsProper.insertAll {fs gs : Fields} (hf : IsProper (.obj fs)) (hg : IsProper (.obj gs)) :
    IsProper (.obj (Assoc.insertAll Text.cmp fs gs)) := by
  refine isProper_obj.mpr ⟨(isProper_obj.mp hf).1.insertAll gs, fun f hmem => ?_⟩
  rcases exists_of_mem_insertAll hmem with ⟨e, he, hvalue⟩ | ⟨e, he, hvalue⟩
  · exact hvalue ▸ (isProper_obj.mp hf).2 e he
  · exact hvalue ▸ (isProper_obj.mp hg).2 e he

theorem IsProper.insert {fs : Fields} (hf : IsProper (.obj fs)) {x : Json} (hx : IsProper x)
    (name : Text) : IsProper (.obj (Assoc.insert Text.cmp name x fs)) := by
  have hfield : IsProper (.obj [(name, x)]) := by
    refine isProper_obj.mpr ⟨List.pairwise_singleton _ _, fun f hmem => ?_⟩
    rw [List.mem_singleton.mp hmem]
    exact hx
  exact hf.insertAll hfield

theorem IsProper.modify {fs : Fields} (hf : IsProper (.obj fs)) {change : Json → Json}
    (hchange : ∀ x, IsProper x → IsProper (change x)) (name : Text) :
    IsProper (.obj (Assoc.modify Text.cmp name change fs)) := by
  obtain ⟨hrising, hvalues⟩ := isProper_obj.mp hf
  refine isProper_obj.mpr ⟨hrising.modify name change, fun f hmem => ?_⟩
  obtain ⟨e, he, rfl⟩ := List.mem_map.mp hmem
  split
  · exact hchange _ (hvalues e he)
  · exact hvalues e he

/-! ## Fields by their names -/

theorem namedValues_append (names : List Text) (fs gs : Fields) :
    namedValues names (fs ++ gs) = namedValues names fs ++ namedValues names gs := by
  simp [namedValues]

theorem namedValues_optionalField {α : Type} (names : List Text) (name : Text) (f : α → Json)
    (o : Option α) : namedValues names (optionalField name f o) =
      if name ∈ names then (o.map f).toList else [] := by
  cases o with
  | none => simp [namedValues, optionalField]
  | some a => by_cases h : name ∈ names <;> simp [namedValues, optionalField, h]

theorem namedValues_canonFields (names : List Text) (fs : Fields) :
    namedValues names (canonFields fs) = (namedValues names fs).map canon := by
  rw [canonFields_eq_map, namedValues, namedValues, List.filter_map, List.map_map, List.map_map]
  rfl

theorem uniqueField?_of_toList {fs : Fields} {names : List Text} {o : Option Json}
    (h : namedValues names fs = o.toList) : uniqueField? fs names = some o := by
  rw [uniqueField?, h]
  cases o <;> rfl

/-- A field is found again when the fields are put in another order. -/
theorem namedValues_of_perm {fs gs : Fields} (hperm : fs.Perm gs) {names : List Text}
    {o : Option Json} (h : namedValues names gs = o.toList) : namedValues names fs = o.toList := by
  have hvalues : (namedValues names fs).Perm (namedValues names gs) :=
    (hperm.filter _).map _
  rw [h] at hvalues
  cases o with
  | none => exact hvalues.eq_nil
  | some x => exact List.perm_singleton.mp hvalues

/-- A record is read by what is found under its names. -/
theorem record?_of_namedValues {fs : Fields} {names : List (List Text)} {vs : List (Option Json)}
    (h : List.Forall₂ (fun ns v => namedValues ns fs = v.toList) names vs) :
    record? names (.obj fs) = some vs := by
  rw [record?]
  induction h with
  | nil => rfl
  | cons hv _ ih =>
    rw [List.mapM_cons, uniqueField?_of_toList hv, ih]
    rfl

/-- A record whose names all differ has the same fields in canonical form, and these are in
canonical form. -/
theorem record?_canon {fs : Fields} (hdistinct : (fs.map (·.1)).Nodup) {names : List (List Text)}
    {vs : List (Option Json)}
    (h : List.Forall₂ (fun ns v => namedValues ns fs = v.toList) names vs) :
    record? names (canon (.obj fs)) = some (vs.map (Option.map canon)) := by
  have hkeys : (canonFields fs).Pairwise fun a b => Text.cmp a.1 b.1 ≠ .eq := by
    rw [canonFields_eq_map]
    refine List.pairwise_map.mpr ((List.pairwise_map.mp hdistinct).imp fun hne heq => ?_)
    exact hne (Std.LawfulEqCmp.eq_of_compare heq)
  have hperm : (Assoc.insertAll Text.cmp [] (canonFields fs)).Perm (canonFields fs) :=
    Assoc.insertAll_perm hkeys
  refine record?_of_namedValues (List.forall₂_map_right_iff.mpr (h.imp fun ns v hv => ?_))
  refine namedValues_of_perm hperm ?_
  rw [namedValues_canonFields, hv]
  cases v <;> rfl

theorem keys_optionalField {α : Type} (name : Text) (f : α → Json) (o : Option α) :
    ((optionalField name f o).map (·.1)).Sublist [name] := by
  cases o with
  | none => exact List.nil_sublist _
  | some a => exact List.Sublist.refl _

/-- An optional field is read back by what reads its value. -/
theorem optional?_map {α : Type} {f : α → Json} {read : Json → Option α} {o : Option α}
    (h : ∀ a ∈ o, read (f a) = some a ∧ f a ≠ .null) : optional? read (o.map f) = some o := by
  cases o with
  | none => rfl
  | some a =>
    obtain ⟨hread, hnull⟩ := h a rfl
    have hvalue : nullable? read (f a) = (read (f a)).map some := by
      cases hj : f a <;> first | rfl | exact absurd hj hnull
    rw [Option.map_some, optional?, hvalue, hread]
    rfl

/-- Values in canonical form stay as they are. -/
theorem map_canon_map {α : Type} {f : α → Json} {o : Option α} (hf : ∀ a ∈ o, canon (f a) = f a) :
    (o.map f).map canon = o.map f := by
  rw [Option.map_map]
  exact Option.map_congr hf

end Json
end TestTransform

/-
The text that stands for a host configuration.

The text leaves out what has no value, and each field that is left is found again by its
name.  So configurations with the same text are written alike in every field.  Equality of
configurations does not go by how paths and zeros are written; it is told by the texts only
among configurations that are written tidily.
-/
import TestTransform.Host.Config
import TestTransform.Proofs.Json.Equality
import TestTransform.Proofs.Json.Reread

namespace TestTransform

namespace Path

/-- Whether a path is spelled as its components are, without repeated and trailing slashes and
inner `.`. -/
def IsTidy (p : Path) : Prop := ofComponents p.components = p

theorem IsTidy.eq_of_same {p q : Path} (hp : p.IsTidy) (hq : q.IsTidy) (h : p.same q = true) :
    p = q := by
  rw [← hp, same_iff.mp h, hq]

end Path

namespace Json

/-! ## Fields that may be left out -/

theorem mem_optionalField {α : Type} {name : Text} {f : α → Json} {o : Option α}
    {e : Text × Json} : e ∈ optionalField name f o ↔ ∃ a ∈ o, e = (name, f a) := by
  cases o with
  | none => simp [optionalField]
  | some a => simp [optionalField]

/-- A field that may be left out is told from the fields behind it by its name. -/
theorem optionalField_append_inj {α : Type} {name : Text} {f : α → Json}
    (hf : ∀ a b, f a = f b → a = b) {x y : Option α} {r r' : Fields}
    (hr : ∀ e ∈ r, e.1 ≠ name) (hr' : ∀ e ∈ r', e.1 ≠ name)
    (h : optionalField name f x ++ r = optionalField name f y ++ r') : x = y ∧ r = r' := by
  cases x with
  | none =>
    cases y with
    | none => exact ⟨rfl, h⟩
    | some b =>
      have hmem : (name, f b) ∈ r := by
        have hr : r = (name, f b) :: r' := h
        rw [hr]
        exact List.mem_cons_self
      exact absurd rfl (hr _ hmem)
  | some a =>
    cases y with
    | none =>
      have hmem : (name, f a) ∈ r' := by
        have hr : (name, f a) :: r = r' := h
        rw [← hr]
        exact List.mem_cons_self
      exact absurd rfl (hr' _ hmem)
    | some b =>
      have hcons : (name, f a) :: r = (name, f b) :: r' := h
      rw [List.cons.injEq, Prod.mk.injEq] at hcons
      exact ⟨by rw [hf a b hcons.1.2], hcons.2⟩

end Json

namespace HostConfig

open Json (optionalField)

/-! ## The text -/

/-- A list that has items. -/
def nonEmpty {α : Type} (xs : List α) : Option (List α) := if xs.isEmpty then none else some xs

theorem nonEmpty_injective {α : Type} {xs ys : List α} (h : nonEmpty xs = nonEmpty ys) :
    xs = ys := by
  cases xs <;> cases ys <;> simp_all [nonEmpty]

/-- The fields behind the root directory. -/
def furtherFields (h : HostConfig) : Json.Fields :=
  optionalField "cwd" pathJson h.cwd ++ (optionalField "cacheDirectory" pathJson h.cacheDirectory ++
    (optionalField "testMatch" Json.ofTexts (nonEmpty h.testMatch) ++
      (optionalField "testRegex" OneOrMany.toJson h.testRegex ++
        optionalField "globals" Json.obj (nonEmpty h.globals))))

theorem toJson_eq (h : HostConfig) :
    h.toJson = .obj (("rootDir", pathJson h.rootDir) :: h.furtherFields) := by
  simp [toJson, furtherFields, nonEmpty]

theorem pathJson_injective {p q : Path} (h : pathJson p = pathJson q) : p = q :=
  congrArg Path.mk (Json.str.inj h)

theorem ofTexts_injective {ss ts : List Text} (h : Json.ofTexts ss = Json.ofTexts ts) : ss = ts :=
  (List.map_inj_right fun _ _ => Json.str.inj).mp (Json.arr.inj h)

theorem oneOrMany_toJson_injective {x y : OneOrMany} (h : x.toJson = y.toJson) : x = y := by
  cases x with
  | one s =>
    cases y with
    | one t => rw [Json.str.inj h]
    | many ts => cases h
  | many ss =>
    cases y with
    | one t => cases h
    | many ts => rw [ofTexts_injective h]

theorem toJson_injective {h k : HostConfig} (heq : h.toJson = k.toJson) : h = k := by
  have hne : ∀ {a b : Text} {α : Type} {f : α → Json} {o : Option α}, b ≠ a →
      ∀ e ∈ optionalField b f o, e.1 ≠ a := by
    intro a b α f o hab e he
    obtain ⟨x, -, rfl⟩ := Json.mem_optionalField.mp he
    exact hab
  have hdistinct := @List.forall_mem_append (Text × Json)
  rw [toJson_eq, toJson_eq, Json.obj.injEq, List.cons.injEq, Prod.mk.injEq] at heq
  obtain ⟨⟨-, hroot⟩, hrest⟩ := heq
  simp only [furtherFields] at hrest
  obtain ⟨hcwd, hrest⟩ := Json.optionalField_append_inj (fun _ _ => pathJson_injective)
    (by simp only [hdistinct]; refine ⟨hne ?_, hne ?_, hne ?_, hne ?_⟩ <;> decide)
    (by simp only [hdistinct]; refine ⟨hne ?_, hne ?_, hne ?_, hne ?_⟩ <;> decide) hrest
  obtain ⟨hcache, hrest⟩ := Json.optionalField_append_inj (fun _ _ => pathJson_injective)
    (by simp only [hdistinct]; refine ⟨hne ?_, hne ?_, hne ?_⟩ <;> decide)
    (by simp only [hdistinct]; refine ⟨hne ?_, hne ?_, hne ?_⟩ <;> decide) hrest
  obtain ⟨hmatch, hrest⟩ := Json.optionalField_append_inj (fun _ _ => ofTexts_injective)
    (by simp only [hdistinct]; refine ⟨hne ?_, hne ?_⟩ <;> decide)
    (by simp only [hdistinct]; refine ⟨hne ?_, hne ?_⟩ <;> decide) hrest
  obtain ⟨hregex, hrest⟩ := Json.optionalField_append_inj (fun _ _ => oneOrMany_toJson_injective)
    (hne (by decide)) (hne (by decide)) hrest
  rw [← List.append_nil (optionalField _ Json.obj _),
    ← List.append_nil (optionalField _ Json.obj (nonEmpty k.globals))] at hrest
  have hglobals := (Json.optionalField_append_inj (fun _ _ => Json.obj.inj) (by simp) (by simp)
    hrest).1
  obtain ⟨rootDir, cwd, cacheDirectory, testMatch, testRegex, globals⟩ := h
  obtain ⟨rootDir', cwd', cacheDirectory', testMatch', testRegex', globals'⟩ := k
  simp only [mk.injEq]
  exact ⟨pathJson_injective hroot, hcwd, hcache, nonEmpty_injective hmatch, hregex,
    nonEmpty_injective hglobals⟩

/-! ## Numbers of a configuration -/

theorem fieldNumbers_append (fs gs : Json.Fields) :
    Json.fieldNumbers (fs ++ gs) = Json.fieldNumbers fs ++ Json.fieldNumbers gs := by
  induction fs with
  | nil => rfl
  | cons f fs ih =>
    obtain ⟨k, x⟩ := f
    rw [List.cons_append, Json.fieldNumbers, Json.fieldNumbers, ih, List.append_assoc]

/-- A field whose value has no number adds none. -/
theorem fieldNumbers_optionalField {α : Type} {name : Text} {f : α → Json}
    (hf : ∀ a, Json.numbers (f a) = []) (o : Option α) :
    Json.fieldNumbers (optionalField name f o) = [] := by
  cases o with
  | none => rfl
  | some a => rw [optionalField, Json.fieldNumbers, hf, Json.fieldNumbers, List.append_nil]

theorem numbers_ofTexts (ts : List Text) : Json.numbers (Json.ofTexts ts) = [] := by
  rw [Json.ofTexts, Json.numbers]
  induction ts with
  | nil => rfl
  | cons t ts ih => exact ih

/-- All numbers of a configuration are in its globals. -/
theorem numbers_toJson (h : HostConfig) : Json.numbers h.toJson = Json.fieldNumbers h.globals := by
  have hpath : ∀ p, Json.numbers (pathJson p) = [] := fun _ => rfl
  have hregex : ∀ r : OneOrMany, Json.numbers r.toJson = [] := by
    intro r
    cases r with
    | one t => rfl
    | many ts => exact numbers_ofTexts ts
  have hglobals : Json.fieldNumbers (optionalField "globals" Json.obj (nonEmpty h.globals)) =
      Json.fieldNumbers h.globals := by
    cases h.globals with
    | nil => rfl
    | cons f fs => simp [nonEmpty, optionalField, Json.fieldNumbers, Json.numbers]
  rw [toJson_eq, Json.numbers, Json.fieldNumbers, hpath, furtherFields, fieldNumbers_append,
    fieldNumbers_append, fieldNumbers_append, fieldNumbers_append, hglobals,
    fieldNumbers_optionalField hpath, fieldNumbers_optionalField hpath,
    fieldNumbers_optionalField numbers_ofTexts, fieldNumbers_optionalField hregex]
  rfl

/-! ## Equal configurations -/

/-- Whether the numbers under the globals are such as a reader gives. -/
def IsMachine (h : HostConfig) : Prop := Json.IsMachine (.obj h.globals)

/-- Whether what equality looks past is written in one way only: paths as their components,
and zeros without a minus sign. -/
structure IsTidy (h : HostConfig) : Prop where
  rootDir : h.rootDir.IsTidy
  cwd : ∀ p ∈ h.cwd, p.IsTidy
  cacheDirectory : ∀ p ∈ h.cacheDirectory, p.IsTidy
  zeros : ∀ n ∈ Json.fieldNumbers h.globals, n.IsPlain

section Equal

variable {a b : HostConfig}

/-- Configurations with the same text are written alike in every field. -/
theorem canonical_injective (ha : a.IsMachine) (hb : b.IsMachine)
    (h : a.canonical = b.canonical) : a = b := by
  have hmachine : ∀ {k : HostConfig}, k.IsMachine → Json.IsMachine k.toJson := by
    intro k hk n hn
    rw [numbers_toJson] at hn
    exact hk n hn
  exact toJson_injective (Json.compact_injective _ _ (hmachine ha) (hmachine hb) h)

/-- Whether two optional paths are both missing or the same. -/
def samePath? : Option Path → Option Path → Bool
  | none, none => true
  | some p, some q => p.same q
  | _, _ => false

theorem same_eq (a b : HostConfig) :
    a.same b = (a.rootDir.same b.rootDir && samePath? a.cwd b.cwd &&
      samePath? a.cacheDirectory b.cacheDirectory && a.testMatch == b.testMatch &&
      a.testRegex == b.testRegex && Json.sameFields a.globals b.globals) := by
  rw [same]
  cases a.cwd <;> cases b.cwd <;> cases a.cacheDirectory <;> cases b.cacheDirectory <;> rfl

theorem same_refl (a : HostConfig) : a.same a = true := by
  have hpath : ∀ p, samePath? p p = true := by
    intro p
    cases p with
    | none => rfl
    | some p => exact p.same_refl
  simp [same_eq, hpath, Path.same_refl, Json.sameFields_refl]

theorem eq_of_samePath? {p q : Option Path} (hp : ∀ x ∈ p, x.IsTidy) (hq : ∀ x ∈ q, x.IsTidy)
    (h : samePath? p q = true) : p = q := by
  cases p with
  | none =>
    cases q with
    | none => rfl
    | some y => cases h
  | some x =>
    cases q with
    | none => cases h
    | some y => rw [(hp x rfl).eq_of_same (hq y rfl) h]

theorem eq_of_same (ha : a.IsMachine) (hb : b.IsMachine) (hta : a.IsTidy) (htb : b.IsTidy)
    (h : a.same b = true) : a = b := by
  simp only [same_eq, Bool.and_eq_true, beq_iff_eq] at h
  obtain ⟨⟨⟨⟨⟨hroot, hcwd⟩, hcache⟩, hmatch⟩, hregex⟩, hglobals⟩ := h
  have hplain : ∀ {k : HostConfig}, k.IsMachine → k.IsTidy →
      ∀ n ∈ Json.fieldNumbers k.globals, n.IsMachine ∧ n.IsPlain :=
    fun hk htk n hn => ⟨hk n hn, htk.zeros n hn⟩
  obtain ⟨rootDir, cwd, cacheDirectory, testMatch, testRegex, globals⟩ := a
  obtain ⟨rootDir', cwd', cacheDirectory', testMatch', testRegex', globals'⟩ := b
  simp only [mk.injEq]
  exact ⟨hta.rootDir.eq_of_same htb.rootDir hroot, eq_of_samePath? hta.cwd htb.cwd hcwd,
    eq_of_samePath? hta.cacheDirectory htb.cacheDirectory hcache, hmatch, hregex,
    Json.fields_eq_of_same _ _ (hplain ha hta) (hplain hb htb) hglobals⟩

/-- Configurations with the same text are equal, and those that are equal and tidily written
have the same text. -/
theorem same_iff_canonical (ha : a.IsMachine) (hb : b.IsMachine) :
    (a.canonical = b.canonical → a.same b = true) ∧
      (a.IsTidy → b.IsTidy → a.same b = true → a.canonical = b.canonical) := by
  constructor
  · intro h
    rw [canonical_injective ha hb h]
    exact same_refl b
  · intro hta htb h
    rw [eq_of_same ha hb hta htb h]

/-- An integer and a float are never equal, and so are not written alike. -/
theorem same_iff_canonical_number :
    HostConfig.canonical { rootDir := ("/p" : Path), globals := [("n", .num (.int 1))] } ≠
      HostConfig.canonical { rootDir := ("/p" : Path)
                             globals := [("n", .num (.float ⟨false, 2 ^ 52, -52⟩))] } := by
  intro h
  have hsame := (same_iff_canonical (by unfold IsMachine; decide) (by unfold IsMachine; decide)).1 h
  exact absurd hsame (by decide)

end Equal

/-- A slash at the end of a path makes another text, and no other configuration. -/
theorem same_with_other_canonical :
    HostConfig.same { rootDir := ("/project" : Path) } { rootDir := ("/project/" : Path) } = true ∧
      HostConfig.canonical { rootDir := ("/project" : Path) } ≠
        HostConfig.canonical { rootDir := ("/project/" : Path) } := by
  decide

end HostConfig
end TestTransform

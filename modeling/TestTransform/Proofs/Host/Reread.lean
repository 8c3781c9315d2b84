/-
A host configuration is read back from the text that stands for it.

The reader looks for each field by its name and takes what is left out for nothing, which is
what left it out.  What it gives is sorted and within its own limits, so the text of a
configuration that was read is read once more as the same configuration, as far as its floats
are.
-/
import TestTransform.Proofs.Host.Canonical
import TestTransform.Proofs.Json.Records

namespace TestTransform

namespace HostConfig

open Json (optionalField)

/-! ## Configurations that are read -/

/-- Whether a configuration is such as the program holds: the globals sorted, and their numbers
such as a reader gives. -/
structure IsProper (h : HostConfig) : Prop where
  sorted : Json.IsCanonical (.obj h.globals)
  machine : h.IsMachine

/-- Whether all floats of a configuration are the ones that their own texts stand for. -/
def FloatsReread (h : HostConfig) : Prop :=
  ∀ x, .float x ∈ Json.fieldNumbers h.globals → (Json.Number.float x).Rereads

/-- How deep the globals may nest in a text that is read. -/
def IsShallow (h : HostConfig) : Prop := Json.nesting (.obj h.globals) < Json.Form.maxDepth

theorem of_ofJson? {j : Json} {h : HostConfig} (hj : Json.IsMachine j)
    (hread : ofJson? j = some h) : h.IsProper ∧
      (Json.nesting (.obj h.globals) < Json.nesting j ∨ h.globals = []) := by
  rw [ofJson?] at hread
  split at hread
  · rename_i rootDir cwd cacheDirectory testMatch testRegex globals hrecord
    simp only [Option.bind_eq_bind, Option.bind_eq_some_iff] at hread
    obtain ⟨root, -, cwd', -, cache', -, match', -, regex', -, globals', hglobals, hread⟩ := hread
    cases hread
    cases globals with
    | none =>
      cases hglobals
      exact ⟨⟨rfl, fun n hn => by cases hn⟩, .inr rfl⟩
    | some x =>
      have hcontains := Json.contains_of_record? hrecord x (by simp)
      have hcanon : x.canon = .obj globals' := by
        rw [Json.defaulted?, globals?] at hglobals
        generalize x.canon = y at hglobals
        cases y <;> cases hglobals
        rfl
      refine ⟨⟨?_, ?_⟩, .inl ?_⟩
      · show Json.IsCanonical (.obj globals')
        rw [← hcanon]
        exact Json.isCanonical_canon x
      · show Json.IsMachine (.obj globals')
        rw [← hcanon]
        exact (hcontains.isMachine hj).canon
      · show Json.nesting (.obj globals') < _
        rw [← hcanon]
        exact (Json.nesting_canon x).trans_lt hcontains.nesting_lt
  · cases hread

/-- A configuration that is read from a text is sorted and within the limits of the reader. -/
theorem of_ofText {t : Text} {h : HostConfig} (hread : ofText t = .ok h) :
    h.IsProper ∧ h.IsShallow := by
  rw [ofText] at hread
  split at hread
  · rename_i k hk
    cases hread
    obtain ⟨j, hj, hk⟩ := Option.bind_eq_some_iff.mp hk
    obtain ⟨f, -, hf⟩ := Option.bind_eq_some_iff.mp hj
    obtain ⟨hmachine, hnesting⟩ := Json.of_knownFields? hf
    obtain ⟨hproper, hglobals⟩ := of_ofJson? hmachine hk
    refine ⟨hproper, ?_⟩
    rcases hglobals with hlt | hnil
    · exact hlt.trans_le hnesting
    · rw [IsShallow, hnil]
      decide
  · cases hread

/-! ## Reading a configuration back -/

theorem record?_toJson (h : HostConfig) : Json.record? fieldNames h.toJson =
    some [some (pathJson h.rootDir), h.cwd.map pathJson, h.cacheDirectory.map pathJson,
      (nonEmpty h.testMatch).map Json.ofTexts, h.testRegex.map OneOrMany.toJson,
      (nonEmpty h.globals).map Json.obj] := by
  have hfields : h.toJson =
      .obj (optionalField "rootDir" pathJson (some h.rootDir) ++ h.furtherFields) := toJson_eq h
  rw [hfields]
  apply Json.record?_of_namedValues
  simp [fieldNames, furtherFields, Json.namedValues_append, Json.namedValues_optionalField]

theorem asTexts?_ofTexts (ts : List Text) : Json.asTexts? (Json.ofTexts ts) = some ts := by
  rw [Json.asTexts?, Json.ofTexts, Json.items?]
  induction ts with
  | nil => rfl
  | cons t ts ih =>
    rw [List.map_cons, List.mapM_cons, ih]
    rfl

theorem ofJson?_toJson {h : HostConfig} (hsorted : Json.IsCanonical (.obj h.globals)) :
    ofJson? h.toJson = some h := by
  have hpath : ∀ p : Option Path,
      Json.optional? Json.asText? (p.map pathJson) = some (p.map (·.text)) := by
    intro p
    cases p <;> rfl
  have htexts : ∀ ts : List Text,
      Json.defaulted? [] Json.asTexts? ((nonEmpty ts).map Json.ofTexts) = some ts := by
    intro ts
    cases ts with
    | nil => rfl
    | cons t ts => exact asTexts?_ofTexts (t :: ts)
  have hregex : ∀ r : Option OneOrMany,
      Json.optional? OneOrMany.ofJson? (r.map OneOrMany.toJson) = some r := by
    intro r
    rcases r with _ | t | ts
    · rfl
    · rfl
    · show (((Json.asTexts? (Json.ofTexts ts)).map OneOrMany.many).map some) = _
      rw [asTexts?_ofTexts]
      rfl
  have hglobals : Json.defaulted? [] globals? ((nonEmpty h.globals).map Json.obj) =
      some h.globals := by
    rw [Json.IsCanonical] at hsorted
    generalize h.globals = gs at hsorted
    cases gs with
    | nil => rfl
    | cons g gs =>
      show globals? (.obj (g :: gs)) = _
      rw [globals?, hsorted]
      rfl
  rw [ofJson?, record?_toJson]
  simp only [hpath, htexts, hregex, hglobals, Option.bind_eq_bind, Option.bind_some,
    Json.required?, pathJson, Json.asText?]
  obtain ⟨rootDir, cwd, cacheDirectory, testMatch, testRegex, globals⟩ := h
  cases cwd <;> cases cacheDirectory <;> rfl

/-- A configuration is read back from its text. -/
theorem ofText_canonical {h : HostConfig} (hproper : h.IsProper) (hshallow : h.IsShallow)
    (hfloats : h.FloatsReread) : ofText h.canonical = .ok h := by
  have hrereads : Json.Rereads h.toJson := by
    intro n hn
    rw [numbers_toJson] at hn
    cases n with
    | int i => exact Json.Number.rereads_int (hproper.machine _ hn)
    | float x => exact hfloats x hn
  have hform : Json.Form.ofText? h.canonical = some (Json.formOf h.toJson) :=
    (Json.reads_formOf h.toJson hrereads.isMachine).ofText?
  have hfields : ∀ f ∈ (("rootDir", pathJson h.rootDir) :: h.furtherFields : Json.Fields),
      fieldNames.flatten.contains f.1 = true ∧ Json.nesting f.2 < Json.Form.maxDepth := by
    have htexts : ∀ ts, Json.nesting (Json.ofTexts ts) < Json.Form.maxDepth := by
      intro ts
      have hflat : Json.itemNesting (ts.map Json.str) ≤ 0 := by
        refine Json.itemNesting_le.mpr fun x hx => ?_
        obtain ⟨t, -, rfl⟩ := List.mem_map.mp hx
        exact Nat.le_refl _
      exact Nat.lt_of_le_of_lt (Nat.succ_le_succ hflat) (by decide)
    have htext : ∀ t, Json.nesting (.str t) < Json.Form.maxDepth := fun _ =>
      (by decide : 0 < Json.Form.maxDepth)
    refine List.forall_mem_cons.mpr ⟨⟨by simp [fieldNames], htext _⟩, ?_⟩
    simp only [furtherFields, List.forall_mem_append, Json.mem_optionalField]
    refine ⟨?_, ?_, ?_, ?_, ?_⟩
    · rintro f ⟨p, -, rfl⟩
      exact ⟨by simp [fieldNames], htext _⟩
    · rintro f ⟨p, -, rfl⟩
      exact ⟨by simp [fieldNames], htext _⟩
    · rintro f ⟨ts, -, rfl⟩
      exact ⟨by simp [fieldNames], htexts ts⟩
    · rintro f ⟨r, -, rfl⟩
      refine ⟨by simp [fieldNames], ?_⟩
      cases r with
      | one t => exact htext t
      | many ts => exact htexts ts
    · rintro f ⟨gs, hgs, rfl⟩
      refine ⟨by simp [fieldNames], ?_⟩
      rw [nonEmpty] at hgs
      split at hgs
      · cases hgs
      · cases hgs
        exact hshallow
  have hknown : Json.knownFields? Json.Form.maxDepth fieldNames.flatten (Json.formOf h.toJson) =
      some h.toJson := by
    rw [toJson_eq] at hrereads ⊢
    exact Json.knownFields?_formOf (fun f hf => (hfields f hf).1) hrereads
      (Nat.succ_le_of_lt (Nat.lt_of_le_of_lt (Json.fieldNesting_le.mpr fun f hf =>
        Nat.le_pred_of_lt (hfields f hf).2) (by decide)))
  rw [ofText, hform, Option.bind_some, hknown, Option.bind_some, ofJson?_toJson hproper.sorted]

end HostConfig
end TestTransform

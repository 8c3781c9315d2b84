/-
The options of a host are read back from the globals they are put under.

A setting may be written in several ways, and the reader takes the first one that fits; what is
written for one of them never fits an earlier one.  The globals keep their objects sorted, so a
record is read with its fields in another order than they were written in.
-/
import TestTransform.Proofs.Host.Reread

namespace TestTransform

/-! ## Diagnostics -/

/-- Whether a code fits the 32 bits it is read as. -/
def CodeItem.IsProper : CodeItem → Prop
  | number n => n < 2 ^ 32
  | text _ => True

namespace CodeItem

theorem ofJson?_toJson {i : CodeItem} (h : i.IsProper) : ofJson? i.toJson = some i := by
  cases i with
  | text t => rfl
  | number n =>
    have hn : n < 2 ^ 32 := h
    have hread : (Json.ofNat n).asNat32? = some n := by
      have hrange : (0 ≤ (n : Int) && (n : Int) < 4294967296) = true := by
        simp only [Bool.and_eq_true, decide_eq_true_eq]
        omega
      simp only [Json.ofNat, Json.asNat32?, hrange, if_true, Int.toNat_natCast]
    show (Json.ofNat n).asNat32?.map number = _
    rw [hread]
    rfl

theorem isMachine_toJson {i : CodeItem} (h : i.IsProper) : Json.IsMachine i.toJson := by
  cases i with
  | text t => exact fun n hn => by cases hn
  | number m =>
    have hm : m < 2 ^ 32 := h
    intro n hn
    rw [List.mem_singleton.mp hn]
    constructor <;> omega

theorem canon_toJson (i : CodeItem) : Json.canon i.toJson = i.toJson := by
  cases i <;> rfl

end CodeItem

/-- Whether all codes of a list fit. -/
def CodeList.IsProper (l : CodeList) : Prop := ∀ i ∈ l.items, i.IsProper

namespace CodeList

theorem ofJson?_toJson {l : CodeList} (h : l.IsProper) : ofJson? l.toJson = some l := by
  cases l with
  | one i =>
    have hread := CodeItem.ofJson?_toJson (h i (List.mem_singleton_self i))
    have hitem : ofJson? i.toJson = (CodeItem.ofJson? i.toJson).map one := by cases i <;> rfl
    rw [toJson, hitem, hread]
    rfl
  | many is =>
    have hitems : (is.map CodeItem.toJson).mapM CodeItem.ofJson? = some is := by
      induction is with
      | nil => rfl
      | cons i is ih =>
        obtain ⟨hi, his⟩ := List.forall_mem_cons.mp h
        rw [List.map_cons, List.mapM_cons, CodeItem.ofJson?_toJson hi, ih his]
        rfl
    rw [toJson, ofJson?, hitems]
    rfl

theorem isMachine_toJson {l : CodeList} (h : l.IsProper) : Json.IsMachine l.toJson := by
  cases l with
  | one i => exact CodeItem.isMachine_toJson (h i (List.mem_singleton_self i))
  | many is =>
    refine Json.isMachine_arr.mpr fun x hx => ?_
    obtain ⟨i, hi, rfl⟩ := List.mem_map.mp hx
    exact CodeItem.isMachine_toJson (h i hi)

theorem canon_toJson (l : CodeList) : Json.canon l.toJson = l.toJson := by
  cases l with
  | one i => exact i.canon_toJson
  | many is => exact Json.canon_arr_map CodeItem.canon_toJson is

theorem toJson_ne_null (l : CodeList) : l.toJson ≠ .null := by
  rcases l with (n | t) | is <;> exact nofun

end CodeList

namespace DiagnosticsOptions

open Json (optionalField)

/-- Whether the codes to ignore fit. -/
def IsProper (o : DiagnosticsOptions) : Prop := ∀ l ∈ o.ignoreCodes, l.IsProper

def fields (o : DiagnosticsOptions) : Json.Fields :=
  optionalField "pretty" .bool o.pretty ++ optionalField "ignoreCodes" CodeList.toJson o.ignoreCodes ++
    optionalField "pathRegex" .str o.pathRegex ++ optionalField "warnOnly" .bool (some o.warnOnly)

theorem record?_canon (o : DiagnosticsOptions) :
    Json.record? [["pretty"], ["ignoreCodes"], ["pathRegex"], ["warnOnly"]] o.toJson.canon =
      some [o.pretty.map .bool, o.ignoreCodes.map CodeList.toJson, o.pathRegex.map .str,
        some (.bool o.warnOnly)] := by
  have hkeys : (o.fields.map (·.1)).Sublist
      (["pretty", "ignoreCodes", "pathRegex", "warnOnly"] : List Text) := by
    simp only [fields, List.map_append]
    exact (((Json.keys_optionalField _ _ _).append (Json.keys_optionalField _ _ _)).append
      (Json.keys_optionalField _ _ _)).append (Json.keys_optionalField _ _ _)
  have hrecord : Json.record? [["pretty"], ["ignoreCodes"], ["pathRegex"], ["warnOnly"]]
      (Json.canon (.obj o.fields)) = some ([o.pretty.map .bool, o.ignoreCodes.map CodeList.toJson,
        o.pathRegex.map .str, some (.bool o.warnOnly)].map (Option.map Json.canon)) :=
    Json.record?_canon (List.Nodup.sublist hkeys (by decide))
      (by simp [fields, Json.namedValues_append, Json.namedValues_optionalField])
  simp only [List.map_cons, List.map_nil] at hrecord
  rwa [Json.map_canon_map fun _ _ => rfl, Json.map_canon_map fun l _ => l.canon_toJson,
    Json.map_canon_map fun _ _ => rfl] at hrecord

theorem ofJson?_canon {o : DiagnosticsOptions} (h : o.IsProper) :
    ofJson? o.toJson.canon = some o := by
  have hpretty : Json.optional? Json.asBool? (o.pretty.map .bool) = some o.pretty :=
    Json.optional?_map fun _ _ => ⟨rfl, nofun⟩
  have hcodes : Json.optional? CodeList.ofJson? (o.ignoreCodes.map CodeList.toJson) =
      some o.ignoreCodes :=
    Json.optional?_map fun l hl => ⟨CodeList.ofJson?_toJson (h l hl), l.toJson_ne_null⟩
  have hregex : Json.optional? Json.asText? (o.pathRegex.map .str) = some o.pathRegex :=
    Json.optional?_map fun _ _ => ⟨rfl, nofun⟩
  rw [ofJson?, record?_canon]
  simp only [hpretty, hcodes, hregex, Option.bind_eq_bind, Option.bind_some, Json.defaulted?,
    Json.asBool?]

theorem isMachine_toJson {o : DiagnosticsOptions} (h : o.IsProper) :
    Json.IsMachine o.toJson := by
  have hfields : ∀ f ∈ o.fields, Json.IsMachine f.2 := by
    simp only [fields, List.forall_mem_append, Json.mem_optionalField]
    refine ⟨⟨⟨?_, ?_⟩, ?_⟩, ?_⟩ <;> rintro f ⟨a, ha, rfl⟩
    · exact nofun
    · exact CodeList.isMachine_toJson (h a ha)
    · exact nofun
    · exact nofun
  exact Json.isMachine_obj.mpr hfields

end DiagnosticsOptions

namespace DiagnosticsSetting

/-- Whether the codes to ignore fit, if there are details. -/
def IsProper : DiagnosticsSetting → Prop
  | toggle _ => True
  | options o => o.IsProper

theorem ofJson?_canon {s : DiagnosticsSetting} (h : s.IsProper) :
    ofJson? s.toJson.canon = some s := by
  cases s with
  | toggle b => rfl
  | options o =>
    have hread := DiagnosticsOptions.ofJson?_canon (o := o) h
    show (DiagnosticsOptions.ofJson? o.toJson.canon).map options = _
    rw [hread]
    rfl

theorem canon_ne_null (s : DiagnosticsSetting) : s.toJson.canon ≠ .null := by
  cases s <;> exact nofun

theorem isMachine_toJson {s : DiagnosticsSetting} (h : s.IsProper) :
    Json.IsMachine s.toJson := by
  cases s with
  | toggle b => exact nofun
  | options o => exact DiagnosticsOptions.isMachine_toJson (o := o) h

end DiagnosticsSetting

/-! ## Sources of compiler options -/

namespace TsConfigSource

/-- Whether inline options are such as a reader gives. -/
def IsProper (s : TsConfigSource) : Prop := Json.IsProper s.toJson

theorem ofJson?_toJson {s : TsConfigSource} (h : s.IsProper) : ofJson? s.toJson = some s := by
  cases s with
  | toggle b => rfl
  | file t => rfl
  | inline fs =>
    have hcanon : Json.canon (.obj fs) = .obj fs := h.canon_eq
    rw [toJson, ofJson?, hcanon]

theorem toJson_ne_null (s : TsConfigSource) : s.toJson ≠ .null := by
  cases s <;> exact nofun

end TsConfigSource

/-! ## Options -/

namespace HostOptions

open Json (optionalField)

/-- Whether options are such as the program holds: inline options sorted, with numbers such as a
reader gives, and codes of 32 bits. -/
structure IsProper (o : HostOptions) : Prop where
  tsconfig : ∀ s ∈ o.tsconfig, s.IsProper
  diagnostics : ∀ s ∈ o.diagnostics, s.IsProper

def fields (o : HostOptions) : Json.Fields :=
  optionalField "tsconfig" TsConfigSource.toJson o.tsconfig ++
    optionalField "isolatedModules" .bool (some o.isolatedModules) ++
    optionalField "compiler" .str o.compiler ++
    optionalField "diagnostics" DiagnosticsSetting.toJson o.diagnostics ++
    optionalField "stringifyContentPathRegex" .str o.stringifyContentPathRegex ++
    optionalField "useESM" .bool (some o.useEsm)

theorem record?_canon {o : HostOptions} (h : o.IsProper) :
    Json.record? fieldNames o.toJson.canon =
      some [o.tsconfig.map TsConfigSource.toJson, some (.bool o.isolatedModules),
        o.compiler.map .str, o.diagnostics.map fun s => s.toJson.canon,
        o.stringifyContentPathRegex.map .str, some (.bool o.useEsm)] := by
  have hkeys : (o.fields.map (·.1)).Sublist (["tsconfig", "isolatedModules", "compiler",
      "diagnostics", "stringifyContentPathRegex", "useESM"] : List Text) := by
    simp only [fields, List.map_append]
    exact (((((Json.keys_optionalField _ _ _).append (Json.keys_optionalField _ _ _)).append
      (Json.keys_optionalField _ _ _)).append (Json.keys_optionalField _ _ _)).append
      (Json.keys_optionalField _ _ _)).append (Json.keys_optionalField _ _ _)
  have hrecord : Json.record? fieldNames (Json.canon (.obj o.fields)) =
      some ([o.tsconfig.map TsConfigSource.toJson, some (.bool o.isolatedModules),
        o.compiler.map .str, o.diagnostics.map DiagnosticsSetting.toJson,
        o.stringifyContentPathRegex.map .str, some (.bool o.useEsm)].map (Option.map Json.canon)) :=
    Json.record?_canon (List.Nodup.sublist hkeys (by decide))
      (by simp [fields, fieldNames, Json.namedValues_append, Json.namedValues_optionalField])
  simp only [List.map_cons, List.map_nil] at hrecord
  rwa [Json.map_canon_map fun s hs => (h.tsconfig s hs).canon_eq, Json.map_canon_map fun _ _ => rfl,
    Option.map_map, Json.map_canon_map fun _ _ => rfl] at hrecord

/-- Options are read back from what they are written as. -/
theorem ofJson?_canon {o : HostOptions} (h : o.IsProper) : ofJson? o.toJson.canon = some o := by
  have htext : ∀ x : Option Text, Json.optional? Json.asText? (x.map .str) = some x := fun _ =>
    Json.optional?_map fun _ _ => ⟨rfl, nofun⟩
  have htsconfig : Json.optional? TsConfigSource.ofJson? (o.tsconfig.map TsConfigSource.toJson) =
      some o.tsconfig :=
    Json.optional?_map fun s hs => ⟨TsConfigSource.ofJson?_toJson (h.tsconfig s hs), s.toJson_ne_null⟩
  have hdiagnostics : Json.optional? DiagnosticsSetting.ofJson?
      (o.diagnostics.map fun s => s.toJson.canon) = some o.diagnostics :=
    Json.optional?_map fun s hs =>
      ⟨DiagnosticsSetting.ofJson?_canon (h.diagnostics s hs), s.canon_ne_null⟩
  rw [ofJson?, record?_canon h]
  simp only [htext, htsconfig, hdiagnostics, Option.bind_eq_bind, Option.bind_some,
    Json.defaulted?, Json.asBool?]

theorem isMachine_toJson {o : HostOptions} (h : o.IsProper) : Json.IsMachine o.toJson := by
  have hfields : ∀ f ∈ o.fields, Json.IsMachine f.2 := by
    simp only [fields, List.forall_mem_append, Json.mem_optionalField]
    refine ⟨⟨⟨⟨⟨?_, ?_⟩, ?_⟩, ?_⟩, ?_⟩, ?_⟩ <;> rintro f ⟨a, ha, rfl⟩
    · exact (h.tsconfig a ha).2
    · exact nofun
    · exact nofun
    · exact DiagnosticsSetting.isMachine_toJson (h.diagnostics a ha)
    · exact nofun
    · exact nofun
  have hobj : o.toJson = .obj o.fields := by simp [toJson, fields, optionalField]
  rw [hobj]
  exact Json.isMachine_obj.mpr hfields

end HostOptions

namespace HostConfig

/-! ## Configurations with options -/

theorem IsProper.withOptions {h : HostConfig} (hh : h.IsProper) {o : HostOptions}
    (ho : o.IsProper) : (h.withOptions o).IsProper := by
  have hglobals : Json.IsProper (.obj (h.withOptions o).globals) :=
    Json.IsProper.insert ⟨hh.sorted, hh.machine⟩
      ⟨Json.isCanonical_canon _, (HostOptions.isMachine_toJson ho).canon⟩ optionsKey
  exact ⟨hglobals.1, hglobals.2⟩

/-- The options that were put under the globals are found there again. -/
theorem options_withOptions (h : HostConfig) {o : HostOptions} (ho : o.IsProper) :
    (h.withOptions o).options = .ok o := by
  have hfield : Json.field? optionsKey (h.withOptions o).globals = some o.toJson.canon :=
    Assoc.find?_insert_self optionsKey o.toJson.canon h.globals
  have hread := HostOptions.ofJson?_canon ho
  obtain ⟨fs, hobj⟩ : ∃ fs, o.toJson.canon = .obj fs := ⟨_, rfl⟩
  rw [hobj] at hfield hread
  simp only [options, hfield, hread]

/-- A configuration with options is read back from its text as it is, with the same options and
the same text. -/
theorem reread_withOptions {h : HostConfig} {o : HostOptions} (hh : h.IsProper) (ho : o.IsProper)
    (hshallow : (h.withOptions o).IsShallow) (hfloats : (h.withOptions o).FloatsReread) :
    ∃ k, ofText (h.withOptions o).canonical = .ok k ∧ k = h.withOptions o ∧
      k.options = .ok o ∧ k.canonical = (h.withOptions o).canonical :=
  ⟨h.withOptions o, ofText_canonical (hh.withOptions ho) hshallow hfloats, rfl,
    options_withOptions h ho, rfl⟩

/-- A host with a float and a list of patterns, whose older options are replaced by ones with
inline compiler options and with codes in both spellings. -/
theorem reread_withOptions_inline :
    let h : HostConfig := {
      rootDir := ("/project/" : Path)
      cwd := some ("." : Path)
      testRegex := some (.many ["spec"])
      globals := [("half", .num (.float ⟨true, 2 ^ 52, -53⟩)), ("ts-jest", .arr [])] }
    let o : HostOptions := {
      tsconfig := some (.inline [("lib", .arr [.str "es5", .null]), ("strict", .bool true)])
      diagnostics := some (.options {
        ignoreCodes := some (.many [.number 2322, .text "TS7006, 1111"]), warnOnly := true })
      stringifyContentPathRegex := some "html"
      useEsm := true }
    h.IsProper ∧ o.IsProper ∧ (h.withOptions o).IsShallow ∧ (h.withOptions o).FloatsReread ∧
      ∃ k, ofText (h.withOptions o).canonical = .ok k ∧ k = h.withOptions o ∧
        k.options = .ok o ∧ k.canonical = (h.withOptions o).canonical := by
  intro h o
  have hh : h.IsProper := ⟨by unfold Json.IsCanonical; decide, by unfold IsMachine; decide⟩
  have ho : o.IsProper := by
    constructor
    · rintro s ⟨⟩
      exact ⟨by unfold Json.IsCanonical; decide, by decide⟩
    · rintro s ⟨⟩ l ⟨⟩ i hi
      rcases List.mem_pair.mp hi with rfl | rfl
      · exact (by decide : 2322 < 2 ^ 32)
      · trivial
  have hshallow : (h.withOptions o).IsShallow := by
    unfold IsShallow
    decide
  have hfloats : (h.withOptions o).FloatsReread := by
    have hall : ∀ n ∈ Json.fieldNumbers (h.withOptions o).globals, n.Rereads := by decide +kernel
    exact fun x hx => hall _ hx
  exact ⟨hh, ho, hshallow, hfloats, reread_withOptions hh ho hshallow hfloats⟩

end HostConfig
end TestTransform

/-
Options are kept by what they are written as, and told apart by it.

An option that is written is read back as it was, whatever has been read before, and no two
options share a name.  So reading the fields of written options gives these options again, in
the order of the table as well as sorted: options are determined by what is found under each
name.  Options that are not equal therefore differ in what they are written as, and the digest
of a configuration is taken of that.
-/
import TestTransform.Proofs.Compiler.Output
import TestTransform.Proofs.Compiler.Reached
import TestTransform.Proofs.Config.Queries
import TestTransform.Proofs.Options.Values

namespace TestTransform
namespace CompilerOptions

/-! ## Reading back one option -/

theorem read_write_flag {name : Text} {get : CompilerOptions → Option Bool}
    {set : CompilerOptions → Option Bool → CompilerOptions} (hset : ∀ o v, get (set o v) = v)
    {p : CompilerOptions} {v : Json} (h : (flag name get set).write p = some v)
    (o : CompilerOptions) :
    ∃ o', (flag name get set).read v o = .ok o' ∧ (flag name get set).write o' = some v := by
  obtain ⟨b, -, rfl⟩ := Option.map_eq_some_iff.mp h
  exact ⟨_, rfl, congrArg (Option.map Json.bool) (hset o (some b))⟩

theorem read_write_path {name : Text} {get : CompilerOptions → Option Path}
    {set : CompilerOptions → Option Path → CompilerOptions} (hset : ∀ o v, get (set o v) = v)
    {p : CompilerOptions} {v : Json} (h : (pathSlot name get set).write p = some v)
    (o : CompilerOptions) :
    ∃ o', (pathSlot name get set).read v o = .ok o' ∧
      (pathSlot name get set).write o' = some v := by
  obtain ⟨path, -, rfl⟩ := Option.map_eq_some_iff.mp h
  exact ⟨_, rfl, congrArg (Option.map fun p : Path => Json.str p.text) (hset o (some path))⟩

/-- A typed option that was written is read as it was, whatever has been read before. -/
theorem read_write {s : Slot} (hs : s ∈ slots) {p : CompilerOptions} {v : Json}
    (h : s.write p = some v) (o : CompilerOptions) :
    ∃ o', s.read v o = .ok o' ∧ s.write o' = some v := by
  simp only [slots, List.mem_cons, List.not_mem_nil, or_false] at hs
  rcases hs with rfl | rfl | rfl | rfl | rfl | rfl | rfl | rfl | rfl | rfl | rfl | rfl | rfl |
    rfl | rfl | rfl | rfl | rfl | rfl | rfl | rfl
  case inl =>
    obtain ⟨target, -, rfl⟩ := Option.map_eq_some_iff.mp h
    cases target <;> exact ⟨_, rfl, rfl⟩
  case inr.inl =>
    obtain ⟨kind, -, rfl⟩ := Option.map_eq_some_iff.mp h
    cases kind <;> exact ⟨_, rfl, rfl⟩
  all_goals
    first
      | exact read_write_flag (fun _ _ => rfl) h o
      | exact read_write_path (fun _ _ => rfl) h o
      | obtain ⟨t, -, rfl⟩ := Option.map_eq_some_iff.mp h
        exact ⟨_, rfl, rfl⟩

/-- The value that an option is written as stays what it is when it is read. -/
theorem typedValue?_of_field? {o : CompilerOptions} (ho : o.Separate) {name : Text} {v : Json}
    (h : Json.field? name o.toFields = some v) : typedValue? name v = some v := by
  cases hname : slot? name with
  | none => exact typedValue?_of_slot?_eq_none hname v
  | some s =>
    obtain ⟨hs, rfl⟩ := mem_of_slot? hname
    rw [field?_toFields_slot ho hs] at h
    obtain ⟨o', hread, hwrite⟩ := read_write hs h {}
    rw [← write_of_read hs hread, hwrite]

/-! ## Reading back all options -/

/-- Options are determined by what is found under each name in what they are written as. -/
theorem eq_of_field? {o p : CompilerOptions} (ho : o.Separate) (hp : p.Separate)
    (ho' : o.IsProper) (hp' : p.IsProper)
    (h : ∀ name, Json.field? name o.toFields = Json.field? name p.toFields) : o = p := by
  have htyped : o.typed = p.typed := typed_eq_of_write fun s hs => by
    rw [← field?_toFields_slot ho hs, h, field?_toFields_slot hp hs]
  have hother : o.other = p.other := by
    refine (Json.isProper_obj.mp ho').1.ext (Json.isProper_obj.mp hp').1 fun name => ?_
    cases hname : slot? name with
    | some s => rw [find?_other_of_slot ho hname, find?_other_of_slot hp hname]
    | none => rw [← field?_toFields_other hname, h, field?_toFields_other hname]
  calc o = { o.typed with other := o.other } := rfl
    _ = { p.typed with other := p.other } := by rw [htyped, hother]
    _ = p := rfl

/-- Fields that are read whatever has been read before are read all. -/
theorem foldlM_readField_of_forall {fields : Json.Fields}
    (h : ∀ f ∈ fields, ∀ o : CompilerOptions, ∃ o', o.readField f = .ok o') (o : CompilerOptions) :
    ∃ o', fields.foldlM readField o = .ok o' := by
  induction fields generalizing o with
  | nil => exact ⟨o, rfl⟩
  | cons f fields ih =>
    obtain ⟨hf, hfields⟩ := List.forall_mem_cons.mp h
    obtain ⟨o₁, ho₁⟩ := hf o
    rw [List.foldlM_cons, ho₁]
    exact ih hfields o₁

/-- Options are read from any fields with different names in which the same is found as in what
they are written as. -/
theorem ofFields_of_field? {o : CompilerOptions} (ho : o.Separate) (ho' : o.IsProper)
    {fields : Json.Fields} (hdistinct : fields.Pairwise fun a b => Text.cmp a.1 b.1 ≠ .eq)
    (hproper : ∀ f ∈ fields, Json.IsProper f.2)
    (h : ∀ name, Json.field? name fields = Json.field? name o.toFields) :
    ofFields fields = .ok o := by
  have hread : ∀ f ∈ fields, ∀ p : CompilerOptions, ∃ p', p.readField f = .ok p' := by
    intro f hf p
    have hfound : Json.field? f.1 fields = some f.2 := Assoc.find?_of_mem_of_distinct hdistinct hf
    rw [readField]
    cases hname : slot? f.1 with
    | none => exact ⟨_, rfl⟩
    | some s =>
      obtain ⟨hs, hsname⟩ := mem_of_slot? hname
      rw [h, ← hsname, field?_toFields_slot ho hs] at hfound
      obtain ⟨p', hp', -⟩ := read_write hs hfound p
      exact ⟨p', hp'⟩
  obtain ⟨p, hp⟩ := foldlM_readField_of_forall hread {}
  have hp' : ofFields fields = .ok p := hp
  rw [hp']
  refine congrArg Except.ok (eq_of_field? (separate_ofFields hp') ho ?_ ho' fun name => ?_)
  · exact isProper_foldlM hp Json.isProper_obj_nil hproper
  · rw [field?_ofFields hdistinct hp', h]
    cases hfound : Json.field? name o.toFields with
    | none => rfl
    | some v => exact typedValue?_of_field? ho hfound

theorem distinct_toFields {o : CompilerOptions} (ho : o.Separate) (ho' : o.IsProper) :
    o.toFields.Pairwise fun a b => Text.cmp a.1 b.1 ≠ .eq := by
  refine List.pairwise_append.mpr
    ⟨written_distinct o, (Json.isProper_obj.mp ho').1.distinct, fun a ha b hb heq => ?_⟩
  obtain ⟨s, hs, hwrite⟩ := List.mem_filterMap.mp ha
  obtain ⟨v, -, rfl⟩ := Option.map_eq_some_iff.mp hwrite
  have hnone := ho b hb
  rw [← Std.LawfulEqCmp.eq_of_compare heq, slot?_of_mem hs] at hnone
  cases hnone

/-- What all untyped options, texts and switches have, all values have that options are written
as. -/
theorem forall_toFields {o : CompilerOptions} {P : Json → Prop} (hother : ∀ f ∈ o.other, P f.2)
    (hstr : ∀ t, P (.str t)) (hbool : ∀ b, P (.bool b)) : ∀ f ∈ o.toFields, P f.2 := by
  refine List.forall_mem_append.mpr ⟨fun f hf => ?_, hother⟩
  obtain ⟨s, hs, hwrite⟩ := List.mem_filterMap.mp hf
  obtain ⟨v, hv, rfl⟩ := Option.map_eq_some_iff.mp hwrite
  rcases canon_write hs hv with ⟨t, rfl⟩ | ⟨b, rfl⟩
  · exact hstr t
  · exact hbool b

theorem IsProper.toFields {o : CompilerOptions} (ho' : o.IsProper) :
    ∀ f ∈ o.toFields, Json.IsProper f.2 :=
  forall_toFields (Json.isProper_obj.mp ho').2 Json.isProper_str fun _ => ⟨rfl, nofun⟩

theorem IsProper.isMachine {o : CompilerOptions} (ho' : o.IsProper) : Json.IsMachine o.toJson :=
  Json.isMachine_obj.mpr fun f hf => (ho'.toFields f hf).2

/-- Options are read back from what they are written as. -/
theorem ofJson_toJson {o : CompilerOptions} (ho : o.Separate) (ho' : o.IsProper) :
    ofJson o.toJson = .ok o :=
  ofFields_of_field? ho ho' (distinct_toFields ho ho') ho'.toFields fun _ => rfl

/-- They are read back when their fields have been sorted, too. -/
theorem ofJson_canon {o : CompilerOptions} (ho : o.Separate) (ho' : o.IsProper) :
    ofJson o.toJson.canon = .ok o := by
  have hproper : Json.IsProper o.toJson.canon :=
    ⟨Json.isCanonical_canon _, ho'.isMachine.canon⟩
  obtain ⟨hrising, hvalues⟩ := Json.isProper_obj.mp hproper
  refine ofFields_of_field? ho ho' hrising.distinct hvalues fun name => ?_
  have hcanon : Json.canonFields o.toFields = o.toFields :=
    (Json.canonFields_eq_map _).trans ((List.map_congr_left fun f hf => by
      rw [(ho'.toFields f hf).canon_eq]).trans (List.map_id' _))
  rw [hcanon, Json.field?, Assoc.find?_insertAll_of_distinct (distinct_toFields ho ho')]
  exact Option.or_none

/-! ## Options and the object they come from -/

/-- The options that come from an object: they are read from it, then possibly completed and
forced for a transform, and adapted to a module system for one compilation. -/
inductive Obtained (fields : Json.Fields) : CompilerOptions → Prop where
  | read {o : CompilerOptions} : Json.IsProper (.obj fields) → ofFields fields = .ok o →
      Obtained fields o
  | force {o : CompilerOptions} : Obtained fields o → Obtained fields o.force
  | complete (h : HostConfig) {o : CompilerOptions} : Obtained fields o →
      Obtained fields (ResolvedTsConfig.complete h o)
  | forModuleSystem (useEsm supportsEsm : Bool) {o : CompilerOptions} : Obtained fields o →
      Obtained fields (o.forModuleSystem useEsm supportsEsm)

theorem other_forModuleSystem (o : CompilerOptions) (useEsm supportsEsm : Bool) :
    (o.forModuleSystem useEsm supportsEsm).other = o.other := by
  rw [forModuleSystem]
  split <;> rfl

namespace Obtained

variable {fields gs : Json.Fields} {o p : CompilerOptions}

/-- Whatever happens to options, the untyped ones stay as they were read. -/
theorem exists_read (h : Obtained fields o) :
    ∃ p, Json.IsProper (.obj fields) ∧ ofFields fields = .ok p ∧ o.other = p.other := by
  induction h with
  | read hfields h => exact ⟨_, hfields, h, rfl⟩
  | force _ ih => exact ih
  | complete host _ ih =>
    rw [ResolvedTsConfig.other_complete]
    exact ih
  | forModuleSystem useEsm supportsEsm _ ih =>
    rw [other_forModuleSystem]
    exact ih

theorem separate (h : Obtained fields o) : o.Separate := by
  obtain ⟨p, -, hread, hother⟩ := h.exists_read
  rw [Separate, hother]
  exact separate_ofFields hread

theorem isProper (h : Obtained fields o) : o.IsProper := by
  obtain ⟨p, hfields, hread, hother⟩ := h.exists_read
  rw [IsProper, hother]
  exact isProper_ofFields hread hfields

/-- What is no typed option is written as it was read. -/
theorem field?_eq (h : Obtained fields o) {name : Text} (hname : slot? name = none) :
    Json.field? name o.toFields = Json.field? name fields := by
  obtain ⟨p, hfields, hread, hother⟩ := h.exists_read
  rw [field?_toFields_other hname, hother, ← field?_toFields_other hname,
    field?_ofFields (Json.isProper_obj.mp hfields).1.distinct hread]
  cases Json.field? name fields with
  | none => rfl
  | some v => exact typedValue?_of_slot?_eq_none hname v

theorem exists_of_mem_other (h : Obtained fields o) {f : Text × Json} (hf : f ∈ o.other) :
    ∃ g ∈ fields, g.2 = f.2 := by
  have hname : slot? f.1 = none := h.separate f hf
  have hfound : Json.field? f.1 o.toFields = some f.2 := by
    rw [field?_toFields_other hname]
    exact Assoc.find?_of_mem (Json.isProper_obj.mp h.isProper).1 hf
  rw [h.field?_eq hname] at hfound
  obtain ⟨k, -, hmem⟩ := Assoc.mem_of_find? hfound
  exact ⟨_, hmem, rfl⟩

/-- The text of options is read back as the object that they are written as. -/
theorem ofTextRaw?_compact (h : Obtained fields o) (hfloats : (Json.obj fields).FloatsReread)
    (hnesting : Json.nesting (.obj fields) ≤ Json.Form.maxDepth) :
    Json.ofTextRaw? o.toJson.compact = some o.toJson ∧
      Json.ofTextRaw? o.toJson.canon.compact = some o.toJson.canon := by
  have hrereads : Json.Rereads o.toJson := by
    refine Json.rereads_obj.mpr (forall_toFields (fun f hf => ?_) (fun _ => nofun) fun _ => nofun)
    obtain ⟨g, hg, hvalue⟩ := h.exists_of_mem_other hf
    refine ((Json.isProper_obj.mp h.isProper).2 f hf).2.rereads fun x hx => ?_
    rw [← hvalue] at hx
    exact hfloats x (Json.mem_fieldNumbers.mpr ⟨g, hg, hx⟩)
  have hshallow : Json.nesting o.toJson ≤ Json.Form.maxDepth := by
    have hfields := Json.fieldNesting_le.mp (Nat.le_sub_one_of_lt hnesting)
    refine Nat.succ_le_of_lt (Nat.lt_of_le_of_lt (Json.fieldNesting_le.mpr (forall_toFields
      (P := fun v => Json.nesting v ≤ Json.Form.maxDepth - 1) (fun f hf => ?_)
        (fun _ => Nat.zero_le _) fun _ => Nat.zero_le _)) (by decide))
    obtain ⟨g, hg, hvalue⟩ := h.exists_of_mem_other hf
    rw [← hvalue]
    exact hfields g hg
  exact ⟨Json.ofTextRaw?_compact hrereads hshallow,
    Json.ofTextRaw?_compact (fun n hn => hrereads n (Json.numbers_canon _ n hn))
      ((Json.nesting_canon _).trans hshallow)⟩

/-- Options that are written alike, in the order of the table or sorted, are the same. -/
theorem eq_of_compact (h : Obtained fields o) (h' : Obtained gs p)
    (hcompact : o.toJson.compact = p.toJson.compact) : o = p := by
  have hjson : o.toJson = p.toJson :=
    Json.compact_injective _ _ h.isProper.isMachine h'.isProper.isMachine hcompact
  have hread := ofJson_toJson h.separate h.isProper
  rw [hjson, ofJson_toJson h'.separate h'.isProper] at hread
  exact (Except.ok.inj hread).symm

end Obtained

/-! ## What options are written as -/

/-- What holds of options from the fields of an object and what they are written as. -/
structure WrittenFrom (fields : Json.Fields) (o : CompilerOptions) : Prop where
  /-- What is no typed option has the value that it was read with. -/
  untyped : ∀ name, slot? name = none → Json.field? name o.toFields = Json.field? name fields
  reread : ofJson o.toJson = .ok o
  rereadSorted : ofJson o.toJson.canon = .ok o
  /-- From their texts options are read back as far as floats are. -/
  rereadText : (Json.obj fields).FloatsReread → Json.nesting (.obj fields) ≤ Json.Form.maxDepth →
    (Json.ofTextRaw? o.toJson.compact).map ofJson = some (.ok o) ∧
      (Json.ofTextRaw? o.toJson.canon.compact).map ofJson = some (.ok o)
  apart : ∀ gs p, Obtained gs p → o.same p = false →
    o.toJson.compact ≠ p.toJson.compact ∧ o.toJson.canon.compact ≠ p.toJson.canon.compact
  /-- The digest of a configuration with these options is taken of a text that no configuration
  with other options has. -/
  digest : ∀ (c d : ConfigSet) (gs : Json.Fields), c.options = o → Obtained gs d.options →
    o.same d.options = false → c.fingerprint.compact ≠ d.fingerprint.compact ∧
      (Blake3.TellsApart c.fingerprint.compact.utf8 d.fingerprint.compact.utf8 →
        c.cacheKey ≠ d.cacheKey)

theorem Obtained.writtenFrom {fields : Json.Fields} {o : CompilerOptions}
    (h : Obtained fields o) : WrittenFrom fields o := by
  have hne : ∀ p : CompilerOptions, o.same p = false → o ≠ p := by
    rintro p hsame rfl
    rw [o.same_refl] at hsame
    cases hsame
  have hsorted : ∀ gs p, Obtained gs p → o.same p = false →
      o.toJson.canon.compact ≠ p.toJson.canon.compact := fun gs p hp hsame hcompact =>
    hne p hsame (CompilerOptions.eq_of_compact h.separate hp.separate h.isProper hp.isProper
      hcompact)
  exact {
    untyped := fun _ hname => h.field?_eq hname
    reread := ofJson_toJson h.separate h.isProper
    rereadSorted := ofJson_canon h.separate h.isProper
    rereadText := fun hfloats hnesting => by
      obtain ⟨hraw, hcanon⟩ := h.ofTextRaw?_compact hfloats hnesting
      rw [hraw, hcanon, Option.map_some, Option.map_some, ofJson_toJson h.separate h.isProper,
        ofJson_canon h.separate h.isProper]
      exact ⟨rfl, rfl⟩
    apart := fun gs p hp hsame =>
      ⟨fun hcompact => hne p hsame (h.eq_of_compact hp hcompact), hsorted gs p hp hsame⟩
    digest := fun c d gs hc hd hsame => by
      have hfingerprint : c.fingerprint.compact ≠ d.fingerprint.compact := fun heq =>
        hsorted gs _ hd hsame (hc ▸ (ConfigSet.written_of_fingerprint heq).1)
      exact ⟨hfingerprint, fun hhash hkey => hfingerprint (Text.utf8_injective (hhash hkey))⟩ }

/-- Options with a target and a module system in other spellings, a `null`, and untyped options
with a float and an object in them. -/
theorem writtenFrom_mixed :
    let fields : Json.Fields := [
      ("jsx", .str "react"),
      ("module", .str "ES-6"),
      ("outDir", .str "out//x/"),
      ("paths", .obj [("@/*", .arr [.str "src/*", .null]),
        ("weight", .num (.float ⟨false, 6755399441055744, -52⟩))]),
      ("removeComments", .null),
      ("strict", .bool true),
      ("target", .str "ES6")]
    ∃ o, Json.IsProper (.obj fields) ∧ ofFields fields = .ok o ∧
      (Json.obj fields).FloatsReread ∧ Json.nesting (.obj fields) ≤ Json.Form.maxDepth ∧
      WrittenFrom fields (o.force.forModuleSystem true true) := by
  intro fields
  obtain ⟨o, ho⟩ : ∃ o, ofFields fields = .ok o := ⟨_, rfl⟩
  have hproper : Json.IsProper (.obj fields) :=
    ⟨by unfold Json.IsCanonical; decide +kernel, by decide +kernel⟩
  have hfloats : (Json.obj fields).FloatsReread := by
    intro x hx
    rw [List.mem_singleton.mp hx]
    decide +kernel
  exact ⟨o, hproper, ho, hfloats, by decide,
    Obtained.writtenFrom (.forModuleSystem true true (.force (.read hproper ho)))⟩

end CompilerOptions

/-- The options of a configuration set come from an object: that of its file with the inline
options put on top. -/
theorem ConfigSet.obtained_of_build {view : FileView} {registry : CompilerRegistry}
    {codes : List Nat} {host : HostConfig} {c : ConfigSet} (hhost : host.IsProper)
    (h : build view registry codes host = .ok c) :
    ∃ fields, CompilerOptions.Obtained fields c.options := by
  obtain ⟨o, resolved, hc⟩ := build_eq_ok h
  have hoptions : c.options = resolved.options := by rw [hc.eq]
  obtain ⟨fields, typed, hproper, htyped, hcomplete⟩ :=
    ResolvedTsConfig.exists_fields_of_resolve (HostConfig.isProper_inline hhost hc.options)
      hc.resolve
  rw [hoptions, hcomplete]
  exact ⟨fields, .complete host (.read hproper htyped)⟩

end TestTransform

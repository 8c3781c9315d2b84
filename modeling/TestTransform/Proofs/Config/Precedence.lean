/-
Where the options of a configuration set come from.

An option has the value that is given inline or else the one from the last file that declares
it, each file coming after the files that it extends.  Only then are values typed, the target
and the output directory filled in, and some options forced.
-/
import TestTransform.Files.Store
import TestTransform.Proofs.Config.Layers
import TestTransform.Proofs.Options.Values

namespace TestTransform

open TsConfig (Layer Chain lastOf optionIn?)

/-! ## Inline options -/

/-- The options that are given inline. -/
def TsConfigSource.inlineOptions : Option TsConfigSource → Json.Fields
  | some (.inline own) => own
  | _ => []

theorem HostConfig.rising_inlineOptions {host : HostConfig} {o : HostOptions}
    (h : host.options = .ok o) :
    Assoc.Rising Text.cmp (TsConfigSource.inlineOptions o.tsconfig) := by
  rcases hsource : o.tsconfig with _ | _ | _ | own
  · exact Assoc.rising_nil
  · exact Assoc.rising_nil
  · exact Assoc.rising_nil
  · exact (HostConfig.isCanonical_inline h hsource).rising

namespace ResolvedTsConfig

open TsConfigSource (inlineOptions)

/-! ## Declared values -/

/-- The value that an option is declared with: inline, or else in the last file that declares
it. -/
def declared? (host : HostConfig) (source : Option TsConfigSource) (layers : List Layer)
    (name : Text) : Option Json :=
  (optionIn? host.rootDir name (inlineOptions source)).or (lastOf (Layer.option? name) layers)

/-! ## Completed values -/

/-- The options that are forced to a value or, where there is none, taken out. -/
def forced : List (Text × Option Json) :=
  [ ("sourceMap", some (.bool true)), ("inlineSourceMap", some (.bool false)),
    ("inlineSources", some (.bool true)), ("declaration", some (.bool false)),
    ("noEmit", some (.bool false)), ("removeComments", some (.bool false)), ("out", none),
    ("outFile", none), ("composite", none), ("declarationDir", none), ("declarationMap", none),
    ("emitDeclarationOnly", none), ("sourceRoot", none), ("tsBuildInfoFile", none) ]

/-- The value that an option has in the end, by the typed values that the options are given. -/
def effective? (rootDir : Path) (given : Text → Option Json) (name : Text) : Option Json :=
  match Assoc.find? Text.cmp name forced with
  | some value => value
  | none =>
    if name = "target".toList then some ((given name).getD (.str "es2015"))
    else if name = "outDir".toList then
      (given name).or (if given "allowJs" = some (.bool true)
        then some (.str (rootDir.join ⟨"$$tsjest$$"⟩).text) else none)
    else given name

theorem effective?_forced {name : Text} {value : Option Json}
    (h : Assoc.find? Text.cmp name forced = some value) (rootDir : Path)
    (given : Text → Option Json) : effective? rootDir given name = value := by
  rw [effective?, h]

theorem effective?_plain {name : Text} (h : Assoc.find? Text.cmp name forced = none)
    (ht : name ≠ "target".toList) (ho : name ≠ "outDir".toList) (rootDir : Path)
    (given : Text → Option Json) : effective? rootDir given name = given name := by
  rw [effective?, h]
  simp only [ht, ho, if_false]

/-! ## Completing options -/

theorem complete_eq (host : HostConfig) (o : CompilerOptions) :
    complete host o = ({ o with
      target := some (o.target.getD .es2015)
      outDir := o.outDir.or
        (if o.allowsJs then some (host.rootDir.join ⟨"$$tsjest$$"⟩) else none) }).force := by
  by_cases h : (o.allowsJs && o.outDir.isNone) = true
  · obtain ⟨hallow, hnone⟩ := Bool.and_eq_true_iff.mp h
    have hdir : o.outDir = none := Option.isNone_iff_eq_none.mp hnone
    have hor : o.outDir.or (if o.allowsJs then some (host.rootDir.join ⟨"$$tsjest$$"⟩) else none) =
        some (host.rootDir.join ⟨"$$tsjest$$"⟩) := by
      rw [hdir, if_pos hallow, Option.none_or]
    rw [hor]
    exact congrArg CompilerOptions.force (if_pos h)
  · have hor : o.outDir.or (if o.allowsJs then some (host.rootDir.join ⟨"$$tsjest$$"⟩) else none) =
        o.outDir := by
      cases hdir : o.outDir with
      | some p => rfl
      | none =>
        have hallow : ¬ o.allowsJs = true := by simpa [hdir] using h
        rw [if_neg hallow, Option.none_or]
    rw [hor]
    exact congrArg CompilerOptions.force (if_neg h)

theorem write_target_complete {given : Text → Option Json} {o : CompilerOptions}
    (h : given "target" = o.target.map fun v => .str v.text) (rootDir : Path) :
    ((some (o.target.getD .es2015)).map fun v => Json.str v.text) =
      effective? rootDir given "target" := by
  have heffective : effective? rootDir given "target" =
      some ((given "target").getD (.str "es2015")) := rfl
  rw [heffective, h]
  cases o.target <;> rfl

theorem write_outDir_complete {given : Text → Option Json} {o : CompilerOptions}
    (hdir : given "outDir" = o.outDir.map fun p => .str p.text)
    (hallow : given "allowJs" = o.allowJs.map .bool) (rootDir : Path) :
    ((o.outDir.or (if o.allowsJs then some (rootDir.join ⟨"$$tsjest$$"⟩) else none)).map
        fun p => Json.str p.text) =
      effective? rootDir given "outDir" := by
  have heffective : effective? rootDir given "outDir" =
      (given "outDir").or (if given "allowJs" = some (.bool true)
        then some (.str (rootDir.join ⟨"$$tsjest$$"⟩).text) else none) := rfl
  rw [heffective, hdir, hallow, CompilerOptions.allowsJs]
  cases o.outDir with
  | some p => rfl
  | none =>
    rcases o.allowJs with _ | _ | _ <;> rfl

/-- A typed option of the completed options is written as the value that it has in the end. -/
theorem write_complete (host : HostConfig) (o : CompilerOptions) {given : Text → Option Json}
    (hgiven : ∀ s ∈ CompilerOptions.slots, given s.name = s.write o) {s : CompilerOptions.Slot}
    (hs : s ∈ CompilerOptions.slots) :
    s.write (complete host o) = effective? host.rootDir given s.name := by
  have hmem := hs
  have hallow : given "allowJs" = o.allowJs.map .bool :=
    hgiven CompilerOptions.slots[2] (List.getElem_mem _)
  rw [complete_eq]
  simp only [CompilerOptions.slots, List.mem_cons, List.not_mem_nil, or_false] at hs
  -- A slot is forced, or left as it was given, or it is one of the two that are filled in.
  rcases hs with rfl | rfl | rfl | rfl | rfl | rfl | rfl | rfl | rfl | rfl | rfl | rfl | rfl |
    rfl | rfl | rfl | rfl | rfl | rfl | rfl | rfl <;>
  first
    | exact (effective?_forced rfl _ _).symm
    | exact (hgiven _ hmem).symm.trans (effective?_plain rfl (by decide) (by decide) _ _).symm
    | exact write_target_complete (hgiven _ hmem) _
    | exact write_outDir_complete (hgiven _ hmem) hallow _

theorem find?_forced {name : Text} (h : CompilerOptions.slot? name = none) :
    Assoc.find? Text.cmp name forced = none := by
  have hslots : ∀ e ∈ forced, (CompilerOptions.slot? e.1).isSome := by decide
  refine Assoc.find?_eq_none fun e he heq => ?_
  have hsome := hslots e he
  rw [← Std.LawfulEqCmp.eq_of_compare heq, h] at hsome
  cases hsome

theorem field?_complete (host : HostConfig) {o : CompilerOptions} (ho : o.Separate) (name : Text) :
    Json.field? name (complete host o).toFields =
      effective? host.rootDir (fun n => Json.field? n o.toFields) name := by
  cases hslot : CompilerOptions.slot? name with
  | some s =>
    obtain ⟨hs, rfl⟩ := CompilerOptions.mem_of_slot? hslot
    rw [CompilerOptions.field?_toFields_slot (separate_complete ho) hs]
    exact write_complete host o (fun s hs => CompilerOptions.field?_toFields_slot ho hs) hs
  | none =>
    have ht : name ≠ "target".toList := by
      rintro rfl
      cases hslot
    have hd : name ≠ "outDir".toList := by
      rintro rfl
      cases hslot
    rw [effective?_plain (find?_forced hslot) ht hd, CompilerOptions.field?_toFields_other hslot,
      other_complete, CompilerOptions.field?_toFields_other hslot]

/-! ## Configuration sets -/

theorem mergeInline_eq (host : HostConfig) (source : Option TsConfigSource)
    (options : Json.Fields) :
    mergeInline host source options = Assoc.insertAll Text.cmp options
      (TsConfig.resolvePathOptions (inlineOptions source) host.rootDir) := by
  rcases source with _ | _ | _ | own <;> rfl

theorem field?_mergeInline {host : HostConfig} {source : Option TsConfigSource} {file : TsConfig}
    {layers : List Layer} (hfile : file.Merges layers)
    (hown : Assoc.Rising Text.cmp (inlineOptions source)) (name : Text) :
    Json.field? name (mergeInline host source file.compilerOptions) =
      declared? host source layers name := by
  rw [mergeInline_eq, declared?, ← hfile.options, ← TsConfig.field?_resolvePathOptions]
  have hrising := TsConfig.rising_resolvePathOptions hown host.rootDir
  exact Assoc.find?_insertAll_of_distinct hrising.distinct name _

/-- The files that a configuration is read from, none of them without a path. -/
def ChainAt (view : FileView) : Option Path → List Layer → Prop
  | some p, layers => Chain view p.normalize layers
  | none, layers => layers = []

theorem exists_chainAt {view : FileView} {path : Option Path} {file : TsConfig}
    (h : fileAt view path = .ok file) :
    ∃ layers, ChainAt view path layers ∧ file.Merges layers := by
  cases path with
  | none =>
    cases h
    exact ⟨[], rfl, TsConfig.merges_empty⟩
  | some p => exact TsConfig.readsChain_of_read h

theorem rising_of_fileAt {view : FileView} {path : Option Path} {file : TsConfig}
    (h : fileAt view path = .ok file) : Assoc.Rising Text.cmp file.compilerOptions := by
  cases path with
  | none =>
    cases h
    exact Assoc.rising_nil
  | some p => exact (Json.isProper_obj.mp (TsConfig.isProper_read h)).1

/-- Whether the options and the input files of a configuration set are what is declared
last. -/
structure Declared (view : FileView) (host : HostConfig) (o : HostOptions) (layers : List Layer)
    (c : ConfigSet) : Prop where
  located : locate view host o.tsconfig = .ok c.tsconfigPath
  chain : ChainAt view c.tsconfigPath layers
  options : ∀ name, Json.field? name c.options.toFields =
    effective? host.rootDir (fun n => (declared? host o.tsconfig layers n).bind
      (CompilerOptions.typedValue? n)) name
  /-- The input files are looked for with the lists that were declared last. -/
  fileNames : ∀ p, c.tsconfigPath = some p → ∃ file, TsConfig.read view p = .ok file ∧
    file.includes = lastOf Layer.includes layers ∧ file.excludes = lastOf Layer.excludes layers ∧
    file.files = lastOf Layer.files layers ∧
    (o.isolatedModules = false → InputFiles.ofConfig view file c.options.outDir = .ok c.fileNames)

end ResolvedTsConfig

open ResolvedTsConfig in
/-- In every configuration set that can be built, each option has the value that was declared
last: inline, or else in the last file of the chain that declares it, which comes after all
that it extends. -/
theorem ConfigSet.declared_of_build {view : FileView} {registry : CompilerRegistry}
    {codes : List Nat} {host : HostConfig} {c : ConfigSet}
    (h : build view registry codes host = .ok c) :
    ∃ o layers, host.options = .ok o ∧ Declared view host o layers c := by
  obtain ⟨o, resolved, hc⟩ := build_eq_ok h
  have hresolve := hc.resolve
  rw [resolve_eq] at hresolve
  simp only [Except.bind_eq_ok] at hresolve
  obtain ⟨path, hpath, file, hfile, typed, htyped, references, -, fileNames, hnames, hr⟩ := hresolve
  cases hr
  rw [hc.eq]
  replace htyped := Except.mapError_eq_ok.mp htyped
  obtain ⟨layers, hlayers, hmerges⟩ := exists_chainAt hfile
  have hrising : Assoc.Rising Text.cmp (mergeInline host o.tsconfig file.compilerOptions) := by
    rw [mergeInline_eq]
    exact (rising_of_fileAt hfile).insertAll _
  refine ⟨o, layers, hc.options, hpath, hlayers, fun name => ?_, ?_⟩
  · have hgiven : (fun n => Json.field? n typed.toFields) = fun n =>
        (declared? host o.tsconfig layers n).bind (CompilerOptions.typedValue? n) := by
      funext n
      rw [CompilerOptions.field?_ofFields hrising.distinct htyped,
        field?_mergeInline hmerges (HostConfig.rising_inlineOptions hc.options)]
    rw [field?_complete host (CompilerOptions.separate_ofFields htyped), hgiven]
  · rintro p rfl
    refine ⟨file, hfile, hmerges.includes, hmerges.excludes, hmerges.files, fun hisolated => ?_⟩
    rw [hisolated] at hnames
    exact hnames

/-! ## A project with four configuration files -/

namespace Extending

def registry : CompilerRegistry :=
  ({} : CompilerRegistry).register CompilerRegistry.defaultName ⟨0, "5"⟩

/-- The configuration files come in the order `a.json`, `c/c.json`, `b.json`,
`tsconfig.json`. -/
def files : List (Text × Text) :=
  [ ("/project/tsconfig.json",
      "\x7b\"extends\":[\"./a\",\"./b\"],\"compilerOptions\":\x7b\"module\":null\x7d\x7d"),
    ("/project/a.json",
      "\x7b\"compilerOptions\":\x7b\"target\":\"es5\",\"module\":\"amd\"\x7d," ++
        ("\"include\":[\"a\"]\x7d" : Text)),
    ("/project/b.json",
      "\x7b\"extends\":\"./c/c\",\"compilerOptions\":\x7b\"strict\":null\x7d," ++
        ("\"include\":[\"b\"]\x7d" : Text)),
    ("/project/c/c.json",
      "\x7b\"compilerOptions\":\x7b\"target\":\"ES6\",\"baseUrl\":\"src\"\x7d\x7d"),
    ("/project/a/a.ts", []),
    ("/project/b/b.ts", []) ]

def disk : Disk where
  store := files.foldl (fun s f => s.add ⟨f.1⟩ f.2) {}

/-- Inline the output directory is taken out, and JavaScript is let in. -/
def host : HostConfig where
  rootDir := Path.ofString "/project"
  globals := [(HostConfig.optionsKey, .obj [("tsconfig", .obj
    [("allowJs", .bool true), ("outDir", .null), ("rootDir", .str "src")])])]

/-- What the options come to. -/
def options : Json.Fields :=
  [ ("target", .str "es2015"), ("allowJs", .bool true), ("sourceMap", .bool true),
    ("inlineSourceMap", .bool false), ("inlineSources", .bool true), ("declaration", .bool false),
    ("noEmit", .bool false), ("removeComments", .bool false),
    ("outDir", .str "/project/$$tsjest$$"), ("rootDir", .str "/project/src"),
    ("baseUrl", .str "/project/c/src"), ("strict", .null) ]

end Extending

theorem ConfigSet.declared_of_build_extending :
    ∃ c, build Extending.disk.view Extending.registry [] Extending.host = .ok c ∧
      c.options.toFields = Extending.options ∧ c.fileNames = [Path.ofString "/project/b/b.ts"] ∧
      ∃ o layers, Extending.host.options = .ok o ∧
        ResolvedTsConfig.Declared Extending.disk.view Extending.host o layers c := by
  have hset : (build Extending.disk.view Extending.registry [] Extending.host).toOption.map
      (fun c => (c.options.toFields, c.fileNames)) =
        some (Extending.options, [Path.ofString "/project/b/b.ts"]) := by decide +kernel
  cases hbuild : build Extending.disk.view Extending.registry [] Extending.host with
  | error e =>
    rw [hbuild] at hset
    cases hset
  | ok c =>
    rw [hbuild] at hset
    obtain ⟨hoptions, hnames⟩ := Prod.mk.inj (Option.some.inj hset)
    exact ⟨c, rfl, hoptions, hnames, declared_of_build hbuild⟩

end TestTransform

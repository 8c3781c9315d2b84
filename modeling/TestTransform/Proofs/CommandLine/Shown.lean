/-
The configuration that is shown and the one that is used.

The command that shows a configuration and the configuration set of a host each find, read and
check the file on their own.  The host here has no options but the configuration file, and
takes every file by itself.  Then both read the same file, refuse the same options and the
same references, and what the one shows the other uses.
-/
import TestTransform.CommandLine.Run
import TestTransform.Proofs.Config.Cycles
import TestTransform.Proofs.Config.Precedence
import TestTransform.Proofs.Host.Options
import TestTransform.Proofs.Path.Above

namespace TestTransform

/-! ## Texts without a token -/

namespace Text

theorem splitOnText_go_of_not_occursIn {sep t : Text} (h : occursIn sep t = false) :
    splitOnText.go sep 0 t = [t] := by
  induction t with
  | nil => rfl
  | cons c t ih =>
    rw [occursIn, Bool.or_eq_false_iff] at h
    rw [splitOnText.go, h.1, Bool.and_false, ih h.2]
    rfl

/-- Where nothing occurs that is to be replaced, nothing changes. -/
theorem replace_of_not_occursIn {old t : Text} (h : occursIn old t = false) (new : Text) :
    replace old new t = t := by
  rw [replace, splitOnText, splitOnText_go_of_not_occursIn h]
  rfl

end Text

/-! ## Files that were read -/

/-- What was read is what stands under the normal form of the path. -/
theorem TsConfig.of_read {view : FileView} {path : Path} {c : TsConfig}
    (h : read view path = .ok c) :
    c.path = path.normalize ∧ ∃ t, view.read path.normalize = .ok t := by
  rw [read, Except.map_eq_ok] at h
  obtain ⟨⟨c', visited⟩, hchain, rfl⟩ := h
  rw [readChain] at hchain
  split at hchain
  · cases hchain
  · simp only [Except.bind_eq_ok] at hchain
    obtain ⟨w, hw, ⟨below, visited'⟩, -, hc⟩ := hchain
    cases hc
    exact ⟨rfl, exists_read_of_readWritten hw⟩

namespace CommandLine

variable {view : FileView} {registry : CompilerRegistry} {rootDir path : Path}
  {project : Option Path} {compiler : CompilerHandle}

/-! ## The host -/

/-- The configuration file of a project as an option of a host. -/
def source (project : Option Path) : Option TsConfigSource := project.map fun p => .file p.text

def hostOptions (project : Option Path) : HostOptions :=
  { tsconfig := source project, isolatedModules := true }

/-- A host that only says what the command is told, and takes every file by itself. -/
def hostFor (rootDir : Path) (project : Option Path) : HostConfig :=
  ({ rootDir } : HostConfig).withOptions (hostOptions project)

theorem options_hostFor (rootDir : Path) (project : Option Path) :
    (hostFor rootDir project).options = .ok (hostOptions project) := by
  refine HostConfig.options_withOptions _ ⟨fun s hs => ?_, fun s hs => by cases hs⟩
  obtain ⟨p, -, rfl⟩ := Option.map_eq_some_iff.mp hs
  exact ⟨rfl, fun n hn => by cases hn⟩

/-- The patterns that tell tests from other files can be read when none is given. -/
theorem exists_tests (rootDir : Path) (project : Option Path) :
    ∃ tests, TestMatcher.ofHost (hostFor rootDir project) = .ok tests := by
  have hglobs : (Glob.readAll true TestMatcher.defaultPatterns).isOk = true := by decide +kernel
  cases hread : Glob.readAll true TestMatcher.defaultPatterns with
  | error e =>
    rw [hread] at hglobs
    cases hglobs
  | ok globs =>
    refine ⟨⟨globs, TestMatcher.defaultPatterns, []⟩, ?_⟩
    rw [TestMatcher.ofHost]
    show (Glob.readAll true TestMatcher.defaultPatterns >>= _) = _
    rw [hread]
    rfl

/-- With such a host nothing but the configuration file decides. -/
theorem build_hostFor (view : FileView) (rootDir : Path) (project : Option Path)
    (hcompiler : registry.resolve CompilerRegistry.defaultName = .ok compiler) :
    ∃ set : ResolvedTsConfig → ConfigSet,
      (∀ r, (set r).tsconfigPath = r.path ∧ (set r).options = r.options ∧
        (set r).references = r.references) ∧
      ConfigSet.build view registry [] (hostFor rootDir project) =
        (ResolvedTsConfig.resolve view (hostFor rootDir project) (source project) false).map
          set := by
  obtain ⟨tests, htests⟩ := exists_tests rootDir project
  obtain ⟨diagnostics, hdiagnostics⟩ :
      ∃ policy, DiagnosticsPolicy.ofSetting none [] = .ok policy := ⟨_, rfl⟩
  refine ⟨fun r => {
    host := hostFor rootDir project
    tsconfigPath := r.path
    options := r.options
    fileNames := r.fileNames
    references := r.references
    diagnostics
    isolated := true
    useEsm := false
    compilerName := CompilerRegistry.defaultName
    compiler
    cacheDirectory := none
    stringify := none
    tests }, fun r => ⟨rfl, rfl, rfl⟩, ?_⟩
  simp only [ConfigSet.build, options_hostFor, hostOptions, bind, Except.bind, Bool.not_true,
    hdiagnostics, Option.getD_none, hcompiler, htests]
  cases ResolvedTsConfig.resolve view (hostFor rootDir project) (source project) false with
  | error e => rfl
  | ok r => rfl

/-! ## The file -/

/-- What both make of the file at a path: it is read with all that it extends, its options are
typed, and its references are loaded. -/
structure ReadAt (view : FileView) (path : Path) (c : TsConfig) (typed : CompilerOptions)
    (references : List ProjectReference) : Prop where
  read : TsConfig.read view path = .ok c
  typed : CompilerOptions.ofFields c.compilerOptions = .ok typed
  references : c.references.mapM (ProjectReference.load view) = .ok references

/-- A file says one thing only. -/
theorem ReadAt.unique {c c' : TsConfig} {typed typed' : CompilerOptions}
    {references references' : List ProjectReference} (h : ReadAt view path c typed references)
    (h' : ReadAt view path c' typed' references') :
    c' = c ∧ typed' = typed ∧ references' = references := by
  have hc := h'.read
  rw [h.read] at hc
  cases hc
  have htyped := h'.typed
  rw [h.typed] at htyped
  have hreferences := h'.references
  rw [h.references] at hreferences
  exact ⟨rfl, (Except.ok.inj htyped).symm, (Except.ok.inj hreferences).symm⟩

theorem configPath_normal (habs : rootDir.isAbsolute = true) (hroot : rootDir.normalize = rootDir)
    (h : configPath view rootDir project = .ok path) : path.normalize = path := by
  cases project with
  | some p =>
    cases h
    rw [Path.resolve]
    split <;> exact Path.normalize_normalize _
  | none =>
    rw [configPath] at h
    split at h
    · rename_i found hfound
      cases h
      obtain ⟨dir, hdir, rfl⟩ := List.mem_map.mp (List.mem_of_find?_eq_some hfound)
      have hname : Component.IsName TsConfig.fileName := by decide
      exact Path.normalize_join_of_mem_ancestors habs hroot hdir hname
    · cases h

theorem resolvePath_hostFor {p : Path}
    (hp : Text.occursIn HostConfig.rootDirToken p.text = false) :
    (hostFor rootDir project).resolvePath p.text = rootDir.resolve p := by
  rw [HostConfig.resolvePath, HostConfig.expandRoot, Text.replace_of_not_occursIn hp]
  rfl

theorem locate_some {p : Path} (hp : Text.occursIn HostConfig.rootDirToken p.text = false) :
    ResolvedTsConfig.locate view (hostFor rootDir (some p)) (source (some p)) =
      if view.hasFile (rootDir.resolve p) then .ok (some (rootDir.resolve p))
      else .error (.tsConfigNotFound (rootDir.resolve p)) := by
  rw [← resolvePath_hostFor hp]
  rfl

theorem locate_none : ResolvedTsConfig.locate view (hostFor rootDir none) (source none) =
    .ok (TsConfig.find? view rootDir) := rfl

/-- The file that the host finds is the one that the command reads. -/
theorem configPath_of_locate
    (hproject : ∀ p ∈ project, Text.occursIn HostConfig.rootDirToken p.text = false)
    (h : ResolvedTsConfig.locate view (hostFor rootDir project) (source project) =
      .ok (some path)) : configPath view rootDir project = .ok path := by
  cases project with
  | some p =>
    rw [locate_some (hproject p rfl)] at h
    split at h
    · cases h
      rfl
    · cases h
  | none =>
    rw [locate_none] at h
    rw [configPath, Except.ok.inj h]

/-- The file that the command reads is found by the host, which looks whether it is there. -/
theorem locate_of_configPath (hread : ∀ p t, view.read p = .ok t → view.hasFile p = true)
    (hproject : ∀ p ∈ project, Text.occursIn HostConfig.rootDirToken p.text = false)
    {c : TsConfig} (hc : TsConfig.read view path = .ok c) (hpath : path.normalize = path)
    (h : configPath view rootDir project = .ok path) :
    ResolvedTsConfig.locate view (hostFor rootDir project) (source project) =
      .ok (some path) := by
  cases project with
  | some p =>
    obtain ⟨-, text, htext⟩ := TsConfig.of_read hc
    rw [hpath] at htext
    cases h
    rw [locate_some (hproject p rfl), if_pos (hread _ text htext)]
  | none =>
    rw [locate_none]
    rw [configPath] at h
    split at h
    · rename_i found hfound
      cases h
      rw [hfound]
    · cases h

theorem locate_ne_none (hfind : project = none → TsConfig.find? view rootDir ≠ none) :
    ResolvedTsConfig.locate view (hostFor rootDir project) (source project) ≠ .ok none := by
  cases project with
  | some p =>
    intro h
    rw [source, Option.map_some, ResolvedTsConfig.locate] at h
    split at h <;> cases h
  | none =>
    intro h
    exact hfind rfl (Except.ok.inj h)

/-! ## Both ways -/

theorem showConfig_eq_ok {text : Text} : showConfig view rootDir project = .ok text ↔
    ∃ path c typed references, configPath view rootDir project = .ok path ∧
      ReadAt view path c typed references ∧
        text = (configJson c references).indented 0 ++ ['\n'] := by
  rw [showConfig]
  simp only [Except.bind_eq_ok]
  constructor
  · rintro ⟨path, hpath, c, hc, h⟩
    split at h
    · cases h
    · rename_i typed htyped
      obtain ⟨references, hreferences, h⟩ := Except.bind_eq_ok.mp h
      cases h
      exact ⟨path, c, typed, references, hpath, ⟨Except.mapError_eq_ok.mp hc, htyped,
        Except.mapError_eq_ok.mp hreferences⟩, rfl⟩
  · rintro ⟨path, c, typed, references, hpath, hr, rfl⟩
    refine ⟨path, hpath, c, Except.mapError_eq_ok.mpr hr.read, ?_⟩
    rw [hr.typed]
    exact Except.bind_eq_ok.mpr ⟨references, Except.mapError_eq_ok.mpr hr.references, rfl⟩

theorem resolve_eq_ok (hfind : project = none → TsConfig.find? view rootDir ≠ none)
    {r : ResolvedTsConfig} :
    ResolvedTsConfig.resolve view (hostFor rootDir project) (source project) false = .ok r ↔
      ∃ path c typed references,
        ResolvedTsConfig.locate view (hostFor rootDir project) (source project) =
            .ok (some path) ∧
          ReadAt view path c typed references ∧
            r = ⟨some path, ResolvedTsConfig.complete (hostFor rootDir project) typed, [],
              references⟩ := by
  have hmerge : ∀ options, ResolvedTsConfig.mergeInline (hostFor rootDir project)
      (source project) options = options := by
    intro options
    cases project <;> rfl
  rw [ResolvedTsConfig.resolve_eq]
  simp only [Except.bind_eq_ok, hmerge]
  constructor
  · rintro ⟨path, hpath, c, hc, typed, htyped, references, hreferences, names, hnames, hr⟩
    cases hr
    cases hnames
    cases path with
    | none => exact absurd hpath (locate_ne_none hfind)
    | some path =>
      exact ⟨path, c, typed, references, hpath,
        ⟨hc, Except.mapError_eq_ok.mp htyped, hreferences⟩, rfl⟩
  · rintro ⟨path, c, typed, references, hpath, hr, rfl⟩
    exact ⟨some path, hpath, c, hr.read, typed, Except.mapError_eq_ok.mpr hr.typed, references,
      hr.references, [], rfl, rfl⟩

/-! ## What is shown -/

/-- Whether what is shown is what a configuration set uses: the same file, the same
references, and options that are those of the set as soon as they are typed, the target and
the directory for JavaScript are filled in, and some of them are forced. -/
structure Shows (rootDir : Path) (shown : Json.Fields) (set : ConfigSet) : Prop where
  path : ∃ p, set.tsconfigPath = some p ∧ Json.field? "path" shown = some (.str p.text)
  references : Json.field? "references" shown = some (.arr (set.references.map fun r =>
    .obj [("outDir", Json.ofOption (fun p => .str p.text) r.outDir),
      ("path", .str r.configPath.text), ("rootDir", .str r.rootDir.text)]))
  options : ∃ fields typed, Json.field? "compilerOptions" shown = some (.obj fields) ∧
    CompilerOptions.ofFields fields = .ok typed ∧
    set.options = ({ typed with
      target := some (typed.target.getD .es2015)
      outDir := typed.outDir.or
        (if typed.allowsJs then some (rootDir.join ⟨"$$tsjest$$"⟩) else none) }).force

theorem configJson_eq (c : TsConfig) (references : List ProjectReference) :
    configJson c references = .obj
      [ ("compilerOptions", (Json.obj c.compilerOptions).canon),
        ("files", (Json.ofOption (fun ps => Json.ofTexts (ps.map (·.text))) c.files).canon),
        ("include", (Json.ofOption Json.ofTexts c.includes).canon),
        ("path", .str c.path.text),
        ("references", (Json.arr (references.map referenceJson)).canon) ] := rfl

theorem canon_referenceJson (r : ProjectReference) : (referenceJson r).canon =
    .obj [("outDir", Json.ofOption (fun p => .str p.text) r.outDir),
      ("path", .str r.configPath.text), ("rootDir", .str r.rootDir.text)] := by
  obtain ⟨configPath, rootDir, outDir, includes, files⟩ := r
  cases outDir <;> rfl

theorem canon_references (references : List ProjectReference) :
    (Json.arr (references.map referenceJson)).canon = .arr (references.map fun r =>
      .obj [("outDir", Json.ofOption (fun p => .str p.text) r.outDir),
        ("path", .str r.configPath.text), ("rootDir", .str r.rootDir.text)]) := by
  rw [Json.canon, Json.canonItems_eq_map, List.map_map]
  exact congrArg Json.arr (List.map_congr_left fun r _ => canon_referenceJson r)

theorem exists_shows {c : TsConfig} {typed : CompilerOptions} {references : List ProjectReference}
    {set : ConfigSet} (hr : ReadAt view path c typed references) (hpath : path.normalize = path)
    (htsconfig : set.tsconfigPath = some path)
    (hoptions : set.options = ResolvedTsConfig.complete (hostFor rootDir project) typed)
    (hreferences : set.references = references) :
    ∃ shown, configJson c references = .obj shown ∧ Shows rootDir shown set := by
  refine ⟨_, configJson_eq c references, ?_, ?_, ?_⟩
  · obtain ⟨hc, -⟩ := TsConfig.of_read hr.read
    rw [hpath] at hc
    exact ⟨path, htsconfig, by rw [← hc]; rfl⟩
  · rw [hreferences, ← canon_references]
    rfl
  · refine ⟨c.compilerOptions, typed, ?_, hr.typed, ?_⟩
    · have hcanon := Json.IsProper.canon_eq (TsConfig.isProper_read hr.read)
      show some (Json.obj c.compilerOptions).canon = some (.obj c.compilerOptions)
      rw [hcanon]
    · rw [hoptions, ResolvedTsConfig.complete_eq]
      rfl

/-- A configuration is shown if and only if a configuration set can be built for the same
directory and file, from no other options and with every file taken by itself; and what is
shown is what the set uses. -/
theorem run_tsconfig_shows (hread : ∀ p t, view.read p = .ok t → view.hasFile p = true)
    (cwd : Path) (habs : rootDir.isAbsolute = true) (hroot : rootDir.normalize = rootDir)
    (hproject : ∀ p ∈ project, Text.occursIn HostConfig.rootDirToken p.text = false)
    (hfind : project = none → TsConfig.find? view rootDir ≠ none)
    (hcompiler : registry.resolve CompilerRegistry.defaultName = .ok compiler) :
    ((∃ outcome, run view cwd (.tsconfig rootDir project) = .ok outcome) ↔
      ∃ set, ConfigSet.build view registry [] (hostFor rootDir project) = .ok set) ∧
    ∀ outcome set, run view cwd (.tsconfig rootDir project) = .ok outcome →
      ConfigSet.build view registry [] (hostFor rootDir project) = .ok set →
        ∃ shown, outcome = .print ((Json.obj shown).indented 0 ++ ['\n']) ∧
          Shows rootDir shown set := by
  have hrun : run view cwd (.tsconfig rootDir project) =
      (showConfig view rootDir project).map .print := by
    rw [run, Path.resolve, if_pos habs, hroot]
  obtain ⟨set, hset, hbuild⟩ := build_hostFor view rootDir project hcompiler
  rw [hrun, hbuild]
  simp only [Except.map_eq_ok, showConfig_eq_ok, resolve_eq_ok hfind]
  refine ⟨⟨?_, ?_⟩, ?_⟩
  · rintro ⟨_, _, ⟨path, c, typed, references, hpath, hr, -⟩, -⟩
    have hlocate := locate_of_configPath hread hproject hr.read
      (configPath_normal habs hroot hpath) hpath
    exact ⟨_, _, ⟨path, c, typed, references, hlocate, hr, rfl⟩, rfl⟩
  · rintro ⟨_, _, ⟨path, c, typed, references, hlocate, hr, -⟩, -⟩
    have hpath := configPath_of_locate hproject hlocate
    exact ⟨_, _, ⟨path, c, typed, references, hpath, hr, rfl⟩, rfl⟩
  · rintro _ _ ⟨_, ⟨path, c, typed, references, hpath, hr, rfl⟩, rfl⟩
      ⟨r, ⟨path', c', typed', references', hlocate, hr', rfl⟩, rfl⟩
    have hsame := configPath_of_locate hproject hlocate
    rw [hpath] at hsame
    cases hsame
    obtain ⟨rfl, rfl, rfl⟩ := hr.unique hr'
    obtain ⟨htsconfig, hoptions, hreferences⟩ := hset ⟨some path,
      ResolvedTsConfig.complete (hostFor rootDir project) typed', [], references'⟩
    obtain ⟨shown, hshown, hshows⟩ := exists_shows hr (configPath_normal habs hroot hpath)
      htsconfig hoptions hreferences
    exact ⟨shown, by rw [hshown], hshows⟩

namespace Referring

/-- A configuration file that extends another one and refers to a project of its own. -/
def files : List (Text × Text) :=
  [ ("/project/tsconfig.json",
      "\x7b\"extends\":\"./base\",\"references\":[\x7b\"path\":\"lib\"\x7d]\x7d"),
    ("/project/base.json",
      "\x7b\"compilerOptions\":\x7b\"allowJs\":true\x7d\x7d"),
    ("/project/lib/tsconfig.json", "\x7b\"compilerOptions\":\x7b\"outDir\":\"dist\"\x7d\x7d") ]

def disk : Disk where
  store := files.foldl (fun s f => s.add ⟨f.1⟩ f.2) {}

end Referring

/-- The nearest file of a directory below, and a file that is named. -/
theorem run_tsconfig_shows_referring :
    (∃ outcome set,
      run Referring.disk.view ⟨"/"⟩ (.tsconfig ⟨"/project/src"⟩ none) = .ok outcome ∧
        ConfigSet.build Referring.disk.view Extending.registry []
            (hostFor ⟨"/project/src"⟩ none) = .ok set ∧
          ∃ shown, outcome = .print ((Json.obj shown).indented 0 ++ ['\n']) ∧
            Shows ⟨"/project/src"⟩ shown set) ∧
    (∃ outcome set,
      run Referring.disk.view ⟨"/"⟩ (.tsconfig ⟨"/project"⟩ (some ⟨"lib/tsconfig.json"⟩)) =
          .ok outcome ∧
        ConfigSet.build Referring.disk.view Extending.registry []
            (hostFor ⟨"/project"⟩ (some ⟨"lib/tsconfig.json"⟩)) = .ok set ∧
          ∃ shown, outcome = .print ((Json.obj shown).indented 0 ++ ['\n']) ∧
            Shows ⟨"/project"⟩ shown set) := by
  have hread : ∀ p t, Referring.disk.view.read p = .ok t →
      Referring.disk.view.hasFile p = true := fun p t ht => Disk.hasFile_of_read ht
  have hcompiler : Extending.registry.resolve CompilerRegistry.defaultName = .ok ⟨0, "5"⟩ := rfl
  have hbuilds : ∀ command ∈ ([(⟨"/project/src"⟩, none), (⟨"/project"⟩,
      some ⟨"lib/tsconfig.json"⟩)] : List (Path × Option Path)),
      command.1.isAbsolute = true ∧ command.1.normalize = command.1 ∧
        (∀ p ∈ command.2, Text.occursIn HostConfig.rootDirToken p.text = false) ∧
        (command.2 = none → TsConfig.find? Referring.disk.view command.1 ≠ none) ∧
        (ConfigSet.build Referring.disk.view Extending.registry []
          (hostFor command.1 command.2)).toOption.isSome = true := by
    decide +kernel
  have hshows : ∀ command ∈ ([(⟨"/project/src"⟩, none), (⟨"/project"⟩,
      some ⟨"lib/tsconfig.json"⟩)] : List (Path × Option Path)),
      ∃ outcome set,
        run Referring.disk.view ⟨"/"⟩ (.tsconfig command.1 command.2) = .ok outcome ∧
          ConfigSet.build Referring.disk.view Extending.registry []
              (hostFor command.1 command.2) = .ok set ∧
            ∃ shown, outcome = .print ((Json.obj shown).indented 0 ++ ['\n']) ∧
              Shows command.1 shown set := by
    intro command hcommand
    obtain ⟨habs, hroot, hproject, hfind, hsome⟩ := hbuilds command hcommand
    obtain ⟨hiff, hshows⟩ :=
      run_tsconfig_shows hread ⟨"/"⟩ habs hroot hproject hfind hcompiler
    cases hset : ConfigSet.build Referring.disk.view Extending.registry []
        (hostFor command.1 command.2) with
    | error e =>
      rw [hset] at hsome
      cases hsome
    | ok set =>
      obtain ⟨outcome, houtcome⟩ := hiff.mpr ⟨set, hset⟩
      exact ⟨outcome, set, houtcome, rfl, hshows outcome set houtcome hset⟩
  exact ⟨hshows (_, none) (by simp), hshows (_, some _) (by simp)⟩

end CommandLine
end TestTransform

/-
Configuration sets that compile alike.

A pattern is settled by the text it was read from, a compiler by its name, and the input files
and references of a project by its configuration file.  So two configuration sets that the
digest does not tell apart hold the same, except for the untyped options, the working
directory and the directory for graphs.
-/
import TestTransform.Proofs.Config.Build
import TestTransform.Proofs.Config.Fingerprint

namespace TestTransform

theorem Except.mapError_eq_ok {ε ε' α : Type} {f : ε → ε'} {x : Except ε α} {a : α} :
    x.mapError f = .ok a ↔ x = .ok a := by
  cases x with
  | error e =>
    constructor
    · intro h
      cases h
    · intro h
      cases h
  | ok b =>
    constructor
    · intro h
      cases h
      rfl
    · intro h
      cases h
      rfl

/-! ## Patterns -/

namespace SourcePattern

/-- Whether a pattern is the one that its text stands for. -/
def WasRead (p : SourcePattern) : Prop := Pattern.ofText? p.source = some p.pattern

theorem wasRead_of_read {option : PatternOption} {t : Text} {p : SourcePattern}
    (h : read option t = .ok p) : p.WasRead := by
  rw [read] at h
  split at h
  · cases h
    assumption
  · cases h

theorem eq_of_source {p q : SourcePattern} (hp : p.WasRead) (hq : q.WasRead)
    (h : p.source = q.source) : p = q := by
  obtain ⟨source, pattern⟩ := p
  obtain ⟨source', pattern'⟩ := q
  have hsource : source = source' := h
  have hp : Pattern.ofText? source = some pattern := hp
  have hq : Pattern.ofText? source' = some pattern' := hq
  rw [hsource, hq] at hp
  rw [hsource, Option.some.inj hp]

theorem eq_of_map_source {x y : Option SourcePattern} (hx : ∀ p ∈ x, p.WasRead)
    (hy : ∀ p ∈ y, p.WasRead) (h : x.map (·.source) = y.map (·.source)) : x = y := by
  cases x with
  | none =>
    cases y with
    | none => rfl
    | some q => cases h
  | some p =>
    cases y with
    | none => cases h
    | some q => rw [eq_of_source (hx p rfl) (hy q rfl) (Option.some.inj h)]

/-- Reads a pattern if there is one. -/
def readOption (option : PatternOption) : Option Text → Except ConfigError (Option SourcePattern)
  | some t => (read option t).map some
  | none => .ok none

theorem wasRead_of_readOption {option : PatternOption} {t : Option Text}
    {x : Option SourcePattern} (h : readOption option t = .ok x) : ∀ p ∈ x, p.WasRead := by
  cases t with
  | none =>
    cases h
    intro p hp
    cases hp
  | some t =>
    rw [readOption] at h
    cases hr : read option t with
    | error e =>
      rw [hr] at h
      cases h
    | ok q =>
      rw [hr] at h
      cases h
      intro p hp
      cases hp
      exact wasRead_of_read hr

end SourcePattern

namespace DiagnosticsPolicy

/-- The codes that a setting lists itself. -/
def ownCodes (o : DiagnosticsOptions) : Except ConfigError (List Nat) :=
  match o.ignoreCodes with
  | none => .ok []
  | some l => l.codes.mapError fun e => ConfigError.invalidDiagnosticCode e.value

theorem ofSetting_options (o : DiagnosticsOptions) (codes : List Nat) :
    ofSetting (some (.options o)) codes = (do
      let own ← ownCodes o
      let pathRegex ← SourcePattern.readOption .diagnosticsPathRegex o.pathRegex
      .ok {
        pretty := o.pretty.getD true
        throws := !o.warnOnly
        ignoreCodes := sortCodes (alwaysIgnored ++ codes ++ own)
        pathRegex }) := by
  obtain ⟨pretty, ignoreCodes, pathRegex, warnOnly⟩ := o
  unfold ofSetting ownCodes
  cases ignoreCodes with
  | none => cases pathRegex <;> rfl
  | some l =>
    dsimp only
    cases l.codes <;> cases pathRegex <;> rfl

theorem wasRead_of_ofSetting {setting : Option DiagnosticsSetting} {codes : List Nat}
    {policy : DiagnosticsPolicy} (h : ofSetting setting codes = .ok policy) :
    ∀ p ∈ policy.pathRegex, p.WasRead := by
  have hnone : policy.pathRegex = none → ∀ p ∈ policy.pathRegex, p.WasRead := by
    intro hp p hmem
    rw [hp] at hmem
    cases hmem
  rcases setting with _ | (on | o)
  · cases h
    exact hnone rfl
  · cases on <;> cases h <;> exact hnone rfl
  · rw [ofSetting_options] at h
    simp only [Except.bind_eq_ok] at h
    obtain ⟨own, -, pathRegex, hread, h⟩ := h
    cases h
    exact SourcePattern.wasRead_of_readOption hread

end DiagnosticsPolicy

theorem ConfigSet.wasRead_of_readStringify {o : HostOptions} {x : Option SourcePattern}
    (h : readStringify o = .ok x) : ∀ p ∈ x, p.WasRead := by
  have hread : SourcePattern.readOption .stringifyContentPathRegex o.stringifyContentPathRegex =
      .ok x := by
    rw [← h, readStringify]
    cases o.stringifyContentPathRegex <;> rfl
  exact SourcePattern.wasRead_of_readOption hread

/-- What tells tests from other files is settled by the texts of globs and patterns. -/
theorem TestMatcher.eq_of_ofHost {h h' : HostConfig} {m m' : TestMatcher} (hm : ofHost h = .ok m)
    (hm' : ofHost h' = .ok m') (hpatterns : m.patterns = m'.patterns)
    (hregexes : h.testRegexes = h'.testRegexes) : m = m' := by
  simp only [ofHost, Except.bind_eq_ok] at hm hm'
  obtain ⟨globs, hglobs, regexes, hread, hm⟩ := hm
  obtain ⟨globs', hglobs', regexes', hread', hm'⟩ := hm'
  cases hm
  cases hm'
  change patternsOf h = patternsOf h' at hpatterns
  rw [hpatterns, hglobs'] at hglobs
  rw [hregexes, hread'] at hread
  cases hglobs
  cases hread
  rw [hpatterns]

/-! ## What the configuration file says -/

namespace ResolvedTsConfig

variable {view : FileView} {h : HostConfig} {source : Option TsConfigSource}
  {withFileNames : Bool} {r : ResolvedTsConfig}

/-- The configuration file at a path, if there is one. -/
def fileAt (view : FileView) : Option Path → Except ConfigError TsConfig
  | some p => TsConfig.read view p
  | none => .ok {}

/-- The input files, if they are wanted and there is a configuration file. -/
def inputsOf (view : FileView) (withFileNames : Bool) (path : Option Path) (file : TsConfig)
    (outDir : Option Path) : Except ConfigError (List Path) :=
  if withFileNames && path.isSome then InputFiles.ofConfig view file outDir else .ok []

theorem resolve_eq (view : FileView) (h : HostConfig) (source : Option TsConfigSource)
    (withFileNames : Bool) : resolve view h source withFileNames = (do
      let path ← locate view h source
      let file ← fileAt view path
      let typed ← (CompilerOptions.ofFields (mergeInline h source file.compilerOptions)).mapError
        ConfigError.invalidOption
      let options := complete h typed
      let references ← file.references.mapM (ProjectReference.load view)
      let fileNames ← inputsOf view withFileNames path file options.outDir
      .ok { path, options, fileNames, references }) := by
  rw [resolve]
  refine bind_congr fun path => ?_
  cases path <;>
    refine bind_congr fun file => bind_congr fun typed => bind_congr fun references => ?_ <;>
    simp only [inputsOf] <;>
    split <;>
    rfl

/-- What is read from a configuration file. -/
structure ReadFrom (view : FileView) (h : HostConfig) (withFileNames : Bool) (file : TsConfig)
    (typed : CompilerOptions) (r : ResolvedTsConfig) : Prop where
  read : fileAt view r.path = .ok file
  separate : typed.Separate
  options : r.options = complete h typed
  references : file.references.mapM (ProjectReference.load view) = .ok r.references
  fileNames : inputsOf view withFileNames r.path file r.options.outDir = .ok r.fileNames

theorem resolve_eq_ok (hr : resolve view h source withFileNames = .ok r) :
    ∃ file typed, ReadFrom view h withFileNames file typed r := by
  rw [resolve_eq] at hr
  simp only [Except.bind_eq_ok] at hr
  obtain ⟨path, -, file, hfile, typed, htyped, references, hreferences, fileNames, hnames, hr⟩ := hr
  cases hr
  exact ⟨file, typed, hfile,
    CompilerOptions.separate_ofFields (Except.mapError_eq_ok.mp htyped), rfl, hreferences, hnames⟩

/-- Completing options leaves the untyped ones alone. -/
theorem other_complete (h : HostConfig) (o : CompilerOptions) : (complete h o).other = o.other := by
  simp only [complete, CompilerOptions.force]
  split <;> rfl

theorem separate_complete {o : CompilerOptions} (ho : o.Separate) : (complete h o).Separate := by
  rw [CompilerOptions.Separate, other_complete]
  exact ho

end ResolvedTsConfig

/-! ## Configuration sets -/

namespace ConfigSet

variable {view view' : FileView} {registry : CompilerRegistry} {codes codes' : List Nat}
  {host host' : HostConfig} {c d : ConfigSet}

/-- Whether two configuration sets agree on what decides how a file is compiled. -/
structure Alike (c d : ConfigSet) : Prop where
  rootDir : c.rootDir = d.rootDir
  options : c.options.typed = d.options.typed
  diagnostics : c.diagnostics = d.diagnostics
  isolated : c.isolated = d.isolated
  useEsm : c.useEsm = d.useEsm
  compiler : c.compiler = d.compiler
  stringify : c.stringify = d.stringify
  tests : c.tests = d.tests

theorem separate_of_build (h : build view registry codes host = .ok c) : c.options.Separate := by
  obtain ⟨o, resolved, hc⟩ := build_eq_ok h
  obtain ⟨file, typed, hr⟩ := ResolvedTsConfig.resolve_eq_ok hc.resolve
  have hoptions : c.options = resolved.options := by rw [hc.eq]
  rw [hoptions, hr.options]
  exact ResolvedTsConfig.separate_complete hr.separate

/-- The policy and the patterns are settled by the texts in the digest. -/
theorem settled_of_matches {registry' : CompilerRegistry}
    (h : build view registry codes host = .ok c)
    (h' : build view' registry' codes' host' = .ok d) (m : c.Matches d) :
    c.diagnostics = d.diagnostics ∧ c.stringify = d.stringify ∧ c.tests = d.tests := by
  have hregexes := m.testRegexes
  rw [host_of_build h, host_of_build h'] at hregexes
  obtain ⟨o, resolved, hc⟩ := build_eq_ok h
  obtain ⟨o', resolved', hd⟩ := build_eq_ok h'
  have hpath : c.diagnostics.pathRegex = d.diagnostics.pathRegex :=
    SourcePattern.eq_of_map_source (DiagnosticsPolicy.wasRead_of_ofSetting hc.diagnostics)
      (DiagnosticsPolicy.wasRead_of_ofSetting hd.diagnostics) m.pathRegex
  have hpolicy : ∀ p q : DiagnosticsPolicy, p.enabled = q.enabled → p.pretty = q.pretty →
      p.throws = q.throws → p.ignoreCodes = q.ignoreCodes → p.pathRegex = q.pathRegex → p = q := by
    rintro ⟨⟩ ⟨⟩ rfl rfl rfl rfl rfl
    rfl
  exact ⟨hpolicy _ _ m.enabled m.pretty m.throws m.ignoreCodes hpath,
    SourcePattern.eq_of_map_source (wasRead_of_readStringify hc.stringify)
      (wasRead_of_readStringify hd.stringify) m.stringify,
    TestMatcher.eq_of_ofHost hc.tests hd.tests m.patterns hregexes⟩

/-- Sets that the digest does not tell apart compile alike, wherever they were set up. -/
theorem alike_of_matches (h : build view registry codes host = .ok c)
    (h' : build view' registry codes' host' = .ok d) (m : c.Matches d) : c.Alike d := by
  obtain ⟨hdiagnostics, hstringify, htests⟩ := settled_of_matches h h' m
  obtain ⟨o, resolved, hc⟩ := build_eq_ok h
  obtain ⟨o', resolved', hd⟩ := build_eq_ok h'
  have hcompiler := hc.compiler
  rw [m.compilerName, hd.compiler] at hcompiler
  exact {
    rootDir := m.rootDir
    options := m.options
    diagnostics := hdiagnostics
    isolated := m.isolated
    useEsm := m.useEsm
    compiler := (Except.ok.inj hcompiler).symm
    stringify := hstringify
    tests := htests }

/-- If they were set up on the same files, they have the same inputs and references. -/
theorem inputs_of_matches (h : build view registry codes host = .ok c)
    (h' : build view registry codes' host' = .ok d) (m : c.Matches d) :
    c.fileNames = d.fileNames ∧ c.references = d.references := by
  obtain ⟨o, resolved, hc⟩ := build_eq_ok h
  obtain ⟨o', resolved', hd⟩ := build_eq_ok h'
  obtain ⟨file, typed, hr⟩ := ResolvedTsConfig.resolve_eq_ok hc.resolve
  obtain ⟨file', typed', hr'⟩ := ResolvedTsConfig.resolve_eq_ok hd.resolve
  obtain ⟨htsconfig, hisolated, hoptions⟩ := And.intro m.tsconfigPath (And.intro m.isolated m.options)
  rw [hc.eq, hd.eq] at htsconfig hisolated hoptions ⊢
  dsimp only at htsconfig hisolated hoptions ⊢
  have houtDir : resolved.options.outDir = resolved'.options.outDir :=
    (congrArg CompilerOptions.outDir hoptions :)
  have hfile := hr.read
  rw [htsconfig, hr'.read] at hfile
  cases hfile
  have hnames := hr.fileNames
  have hreferences := hr.references
  rw [htsconfig, hisolated, houtDir, hr'.fileNames] at hnames
  rw [hr'.references] at hreferences
  exact ⟨(Except.ok.inj hnames).symm, (Except.ok.inj hreferences).symm⟩

namespace Alike

theorem shouldStringify (a : c.Alike d) (file : Path) :
    c.shouldStringify file = d.shouldStringify file := by
  rw [ConfigSet.shouldStringify, a.stringify, ConfigSet.shouldStringify]

theorem allowsJs (a : c.Alike d) : c.allowsJs = d.allowsJs := by
  have hallow : c.options.allowJs = d.options.allowJs :=
    (congrArg CompilerOptions.allowJs a.options :)
  rw [ConfigSet.allowsJs, CompilerOptions.allowsJs, hallow, ConfigSet.allowsJs,
    CompilerOptions.allowsJs]

theorem shouldReport (a : c.Alike d) (file : Path) : c.shouldReport file = d.shouldReport file := by
  rw [ConfigSet.shouldReport, a.diagnostics, ConfigSet.shouldReport]

/-- Whether the host supports ECMAScript modules matters only if they are wanted. -/
theorem optionsFor (a : c.Alike d) {o o' : TransformOptions}
    (hesm : c.useEsm = true → o.supportsEsm = o'.supportsEsm) :
    (c.optionsFor o).typed = (d.optionsFor o').typed := by
  rw [ConfigSet.optionsFor, ConfigSet.optionsFor, CompilerOptions.typed_forModuleSystem,
    CompilerOptions.typed_forModuleSystem, a.options, ← a.useEsm]
  cases huse : c.useEsm with
  | false => rfl
  | true => rw [hesm huse]

end Alike
end ConfigSet
end TestTransform

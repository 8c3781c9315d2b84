/-
The configuration set: everything about one host that bears on compilation, worked out
once.
-/
import TestTransform.Config.TestMatcher
import TestTransform.Config.Reference
import TestTransform.Compiler.Registry
import TestTransform.Compiler.Error
import TestTransform.Diagnostic.Format
import TestTransform.Digest.Parts

namespace TestTransform

/-! ## Compiler options of a host -/

/-- Where JavaScript inputs are written to when no directory is named, so that an output
never replaces its input. -/
def allowJsOutDir : Text := "$$tsjest$$"

structure ResolvedTsConfig where
  path : Option Path
  options : CompilerOptions
  fileNames : List Path
  references : List ProjectReference
  deriving Repr, Inhabited

namespace ResolvedTsConfig

/-- The configuration file in effect. -/
def locate (view : FileView) (h : HostConfig) : Option TsConfigSource →
    Except ConfigError (Option Path)
  | some (.toggle false) => .ok none
  | some (.file t) =>
    let path := h.resolvePath t
    if view.hasFile path then .ok (some path) else .error (.tsConfigNotFound path)
  | _ => .ok (TsConfig.find? view h.rootDir)

/-- The options of the file under those given inline. -/
def mergeInline (h : HostConfig) (source : Option TsConfigSource) (options : Json.Fields) :
    Json.Fields :=
  match source with
  | some (.inline own) =>
    Assoc.insertAll Text.cmp options (TsConfig.resolvePathOptions own h.rootDir)
  | _ => options

/-- The typed options with the defaults filled in and the forced values set. -/
def complete (h : HostConfig) (o : CompilerOptions) : CompilerOptions :=
  let o := { o with target := some (o.target.getD ScriptTarget.default) }
  let o :=
    if o.allowsJs && o.outDir.isNone then { o with outDir := some (h.rootDir.join ⟨allowJsOutDir⟩) }
    else o
  o.force

/-- Works out what the files say.  The input files are looked for only when they are
wanted, and only if there is a configuration file. -/
def resolve (view : FileView) (h : HostConfig) (source : Option TsConfigSource)
    (withFileNames : Bool) : Except ConfigError ResolvedTsConfig := do
  let path ← locate view h source
  let file ← match path with
    | some p => TsConfig.read view p
    | none => .ok {}
  let typed ← (CompilerOptions.ofFields (mergeInline h source file.compilerOptions)).mapError
    ConfigError.invalidOption
  let options := complete h typed
  let references ← file.references.mapM (ProjectReference.load view)
  let fileNames ←
    if withFileNames && path.isSome then InputFiles.ofConfig view file options.outDir else .ok []
  .ok { path, options, fileNames, references }

end ResolvedTsConfig

/-! ## The set -/

/-- The codes that the variable of the environment for further codes to ignore lists; none if it
is not set. -/
def environmentCodes (value : Option Text) : Except ConfigError (List Nat) :=
  match value with
  | none => .ok []
  | some t =>
    (Diagnostic.Code.parseList t).mapError fun e => ConfigError.invalidDiagnosticCode e.value

structure ConfigSet where
  host : HostConfig
  tsconfigPath : Option Path
  options : CompilerOptions
  /-- The input files of the project; none in isolated mode. -/
  fileNames : List Path
  references : List ProjectReference
  diagnostics : DiagnosticsPolicy
  isolated : Bool
  useEsm : Bool
  compilerName : Text
  compiler : CompilerHandle
  cacheDirectory : Option Path
  stringify : Option SourcePattern
  tests : TestMatcher
  deriving DecidableEq, Repr, Inhabited

namespace ConfigSet

/-- The version of this library, part of every digest. -/
def version : Text := "0.1.0"

def build (view : FileView) (registry : CompilerRegistry) (envCodes : List Nat)
    (host : HostConfig) : Except ConfigError ConfigSet := do
  let o ← host.options
  let resolved ← ResolvedTsConfig.resolve view host o.tsconfig (!o.isolatedModules)
  let diagnostics ← DiagnosticsPolicy.ofSetting o.diagnostics envCodes
  let compilerName := o.compiler.getD CompilerRegistry.defaultName
  let compiler ← registry.resolve compilerName
  let stringify ← match o.stringifyContentPathRegex with
    | some t => (SourcePattern.read .stringifyContentPathRegex t).map some
    | none => .ok none
  let tests ← TestMatcher.ofHost host
  .ok {
    host
    tsconfigPath := resolved.path
    options := resolved.options
    fileNames := resolved.fileNames
    references := resolved.references
    diagnostics
    isolated := o.isolatedModules
    useEsm := o.useEsm
    compilerName, compiler
    cacheDirectory := host.cacheDirectory.map fun dir => host.resolvePath dir.text
    stringify, tests }

def rootDir (c : ConfigSet) : Path := c.host.rootDir

def workingDir (c : ConfigSet) : Path := c.host.workingDir

/-- The options for one compilation. -/
def optionsFor (c : ConfigSet) (t : TransformOptions) : CompilerOptions :=
  c.options.forModuleSystem c.useEsm t.supportsEsm

def allowsJs (c : ConfigSet) : Bool := c.options.allowsJs

def shouldReport (c : ConfigSet) (file : Path) : Bool := c.diagnostics.shouldReport file

/-- Whether a file is handed on as a text instead of being compiled. -/
def shouldStringify (c : ConfigSet) (file : Path) : Bool :=
  c.stringify.any fun r => r.occursIn file

/-- The first referenced project that a file belongs to. -/
def referenceFor? (c : ConfigSet) (file : Path) : Option ProjectReference :=
  c.references.find? fun r => r.contains file

/-! ## Raising diagnostics -/

/-- What becomes of the diagnostics of a file: an error with those that fail the
compilation, or the warnings to report. -/
def judge (c : ConfigSet) (ds : List Diagnostic) (file : Path) :
    Except (List Diagnostic) (List Diagnostic) :=
  if !c.shouldReport file then .ok []
  else
    let kept := c.diagnostics.filter ds
    let important := kept.filter Diagnostic.isImportant
    if c.diagnostics.throws && !important.isEmpty then .error important
    else .ok (kept.map fun d => { d with category := .warning })

/-- The error for diagnostics, shown with the source lines that can be read. -/
def errorFor (c : ConfigSet) (read? : Path → Option Text) (ds : List Diagnostic) : CompileError :=
  let shown :=
    if c.diagnostics.pretty then Diagnostic.pretty ds c.workingDir read?
    else Diagnostic.plain ds c.workingDir
  .diagnostics shown (ds.map (·.code))

/-! ## The digest -/

/-- What the digest of a configuration set is taken of. -/
def fingerprint (c : ConfigSet) : Json :=
  let pattern (p : Option SourcePattern) : Json := Json.ofOption (fun r => .str r.source) p
  Json.canon <| .obj
    [ ("version", .str version),
      ("compiler", .obj [("name", .str c.compilerName), ("version", .str c.compiler.version)]),
      ("rootDir", .str c.rootDir.text),
      ("tsconfig", Json.ofOption HostConfig.pathJson c.tsconfigPath),
      ("compilerOptions", c.options.toJson),
      ("isolatedModules", .bool c.isolated),
      ("useESM", .bool c.useEsm),
      ("diagnostics", .obj
        [ ("enabled", .bool c.diagnostics.enabled),
          ("pretty", .bool c.diagnostics.pretty),
          ("throws", .bool c.diagnostics.throws),
          ("ignoreCodes", .arr (c.diagnostics.ignoreCodes.map Json.ofNat)),
          ("pathRegex", pattern c.diagnostics.pathRegex) ]),
      ("stringifyContentPathRegex", pattern c.stringify),
      ("testMatch", Json.ofTexts c.tests.patterns),
      ("testRegex", Json.ofTexts c.host.testRegexes),
      ("references", .arr (c.references.map fun r => .str r.configPath.text)) ]

/-- The digest of a JSON value. -/
def digestOf (j : Json) : Text := Digest.ofText j.compact

/-- The digest of a configuration set. -/
def cacheKey (c : ConfigSet) : Text := digestOf c.fingerprint

end ConfigSet
end TestTransform

/-
The type-checking compiler, which compiles files as parts of one program.

It keeps the texts of the files it has been shown, and the dependency graph of the tests.
When a module is compiled, the tests that are recorded to import it, but are not part of
the program yet, are checked again, because they were checked against another content.
-/
import TestTransform.Compiler.Closure
import TestTransform.Compiler.Surroundings
import TestTransform.Graph.Cache

namespace TestTransform

structure LanguageCompiler where
  config : ConfigSet
  host : ServiceHost
  /-- The state of the project that the engine looked at last. -/
  seen : Option Nat := none
  graph : GraphCache
  memo : TestMemo := {}
  deriving Repr, Inhabited

namespace LanguageCompiler

/-- A compiler whose program holds the input files of the project, except tests. -/
def create (view : FileView) (config : ConfigSet) : LanguageCompiler :=
  let (rootFiles, memo) := config.tests.filterOut {} config.fileNames
  { config
    host := { rootFiles, options := config.optionsFor {}, cwd := config.workingDir }
    graph := GraphCache.openAt view config.cacheDirectory
    memo }

/-- A compiler at work in its surroundings. -/
structure Session where
  compiler : LanguageCompiler
  world : Surroundings
  deriving Repr, Inhabited

namespace Session

/-! ## Steps -/

def config (s : Session) : ConfigSet := s.compiler.config

def setHost (s : Session) (host : ServiceHost) : Session :=
  { s with compiler := { s.compiler with host } }

/-- Shows a text for a file. -/
def update (s : Session) (file : Path) (text : Text) : Session :=
  s.setHost (s.compiler.host.updateFile file text).2

def setOptions (s : Session) (options : TransformOptions) : Session :=
  s.setHost (s.compiler.host.setOptions (s.config.optionsFor options))

def service (s : Session) : Service Engine :=
  { engine := s.world.engine, host := s.compiler.host, seen := s.compiler.seen }

/-- The session after its service has been used. -/
def setService (s : Session) (service : Service Engine) : Session :=
  { compiler := { s.compiler with host := service.host, seen := service.seen }
    world := { s.world with engine := service.engine } }

/-- Puts a question about a file to the engine. -/
def ask {α : Type} (question : FileView → Service Engine → Path → α × Service Engine)
    (s : Session) (file : Path) : α × Session :=
  let (answer, service) := question s.world.view s.service file
  (answer, s.setService service)

/-- Whether a file is a test. -/
def isTest (s : Session) (file : Path) : Bool × Session :=
  let (test, memo) := s.config.tests.isTest s.compiler.memo file
  (test, { s with compiler := { s.compiler with memo } })

/-- Records the modules of a file in the graph, which is written if that is news. -/
def record (s : Session) (file : Path) (content : Text) (modules : List Path) : Session :=
  let (_, graph, disk) := s.compiler.graph.record s.world.disk file content modules
  { compiler := { s.compiler with graph }, world := { s.world with disk } }

/-- Checks a file, if its diagnostics are wanted, and hands them on or fails with them. -/
def typeCheck (s : Session) (file : Path) : Except CompileError Unit × Session :=
  if s.config.shouldReport file then
    let (ds, s) := s.ask Engine.check file
    let (outcome, world) := s.world.raise s.config ds file
    (outcome, { s with world })
  else (.ok (), s)

/-- All modules that a file reaches. -/
def collectModules (s : Session) (file : Path) : List Path × Session :=
  Closure.of (ask Engine.modulesOf) (Engine.moduleBound s.world.view s.service) file s

/-! ## Dependents -/

/-- The recorded importers of a module that are not part of the program yet. -/
def unloadedDependents (s : Session) (module : Path) : List Path :=
  (s.compiler.graph.dependentsOf module).filter fun test => !s.compiler.host.files.contains test

/-- The text of a recorded file: that on disk or, if it cannot be read, the recorded one. -/
def recordedText? (s : Session) (file : Path) : Option Text :=
  s.world.disk.read? file <|> (s.compiler.graph.graph.get? file).map (·.content)

/-- Takes files into the program and checks them, up to the first failure. -/
def recheck (s : Session) : List Path → Except CompileError Unit × Session
  | [] => (.ok (), s)
  | file :: files =>
    match s.recordedText? file with
    | none => s.recheck files
    | some text =>
      match (s.update file text).typeCheck file with
      | (.ok (), s) => s.recheck files
      | (.error e, s) => (.error e, s)

/-- What compiling a file entails for the graph: the modules of a test are recorded, and
the tests that import a module are checked again. -/
def followUp (s : Session) (file : Path) (content : Text) : Except CompileError Unit × Session :=
  match s.isTest file with
  | (true, s) =>
    let (modules, s) := s.collectModules file
    (.ok (), s.record file content modules)
  | (false, s) => s.recheck (s.unloadedDependents file)

end Session

/-! ## Compiling -/

/-- The output among the emitted files. -/
def selectOutput (file : Path) (e : Emitted) : Except CompileError CompiledOutput :=
  if e.skipped then .error (.emitSkipped file)
  else
    match e.code? with
    | some code => .ok (.finalize code e.map? file)
    | none => .error (.noOutput file)

namespace Session

/-- The output of a file, if nothing has changed in the project since it was compiled. -/
def reusable? (s : Session) (file : Path) : Option CompiledOutput :=
  s.compiler.host.files.output? file s.compiler.host.projectVersion

/-- Remembers an output.  The project may have moved on since the file was emitted, because
dependents were taken in; the output goes with the state after that. -/
def remember (s : Session) (file : Path) (o : CompiledOutput) : Session :=
  let host := s.compiler.host
  s.setHost { host with files := host.files.storeOutput file host.projectVersion o }

/-- Compiles a file whose text is known. -/
def build (s : Session) (file : Path) (content : Text) :
    Except CompileError CompiledOutput × Session :=
  let (emitted, s) := s.ask Engine.emitFile file
  match s.typeCheck file with
  | (.error e, s) => (.error e, s)
  | (.ok (), s) =>
    match s.followUp file content with
    | (.error e, s) => (.error e, s)
    | (.ok (), s) =>
      match selectOutput file emitted with
      | .error e => (.error e, s)
      | .ok o => (.ok o, s.remember file o)

/-- Compiles a file, or gives its output again if nothing has changed. -/
def compile (s : Session) (content : Text) (file : Path) (options : TransformOptions) :
    Except CompileError CompiledOutput × Session :=
  let p := file.normalize
  let s := (s.setOptions options).update p content
  match s.reusable? p with
  | some o => (.ok o, s)
  | none => s.build p content

/-- All modules that a file reaches: those recorded for this content, or else found by
walking the imports. -/
def resolvedModules (s : Session) (content : Text) (file : Path) : List Path × Session :=
  let p := file.normalize
  match s.compiler.graph.lookupValid? p content with
  | some modules => (modules, s)
  | none =>
    let (modules, s) := (s.update p content).collectModules p
    match s.isTest p with
    | (true, s) => (modules, s.record p content modules)
    | (false, s) => (modules, s)

end Session
end LanguageCompiler
end TestTransform

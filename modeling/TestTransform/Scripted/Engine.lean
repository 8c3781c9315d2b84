/-
An engine that answers from tables and keeps a log of what it was asked.

It serves to see what the library asks of an engine, in which order, and what the
project looks like at that moment.
-/
import TestTransform.Engine.Emitted
import TestTransform.Engine.Service

namespace TestTransform
namespace Scripted

/-- The questions about a file of a project. -/
inductive Question where
  | emit
  | syntactic
  | semantic
  | modules
  deriving DecidableEq, Repr, Inhabited

/-- The version of a file and that of the project. -/
structure Versions where
  file : Option Nat
  project : Nat
  deriving DecidableEq, Repr, Inhabited

/-- What the host says about a file; `before` and `after` are the versions around taking
the snapshot. -/
structure Probe where
  file : Path
  isPresent : Bool
  text : Option Text
  before : Versions
  snapshot : Option Text
  after : Versions
  deriving DecidableEq, Repr, Inhabited

inductive LogEntry where
  | asked (question : Question) (file : Path) (projectVersion : Nat)
      (scripts : List (Path × Option Nat)) (module : Option ModuleKind) (cwd : Path)
  | probed (probe : Probe)
  | transpiled (file : Path) (options : CompilerOptions) (report : Bool)
  deriving DecidableEq, Repr, Inhabited

/-- What transpiling a file is to give; without a code the source comes back. -/
structure TranspileAnswer where
  code : Option Text := none
  map : Option Text := none
  diagnostics : List Diagnostic := []
  deriving DecidableEq, Repr, Inhabited

/-- The tables, keyed by the exact texts of paths, and the log with its latest entry
first. -/
structure Engine where
  version : Text
  emits : List (Text × Emitted) := []
  syntactic : List (Text × List Diagnostic) := []
  semantic : List (Text × List Diagnostic) := []
  modules : List (Text × List Path) := []
  transpiles : List (Text × TranspileAnswer) := []
  /-- The files to look at after each emit. -/
  probes : List Path := []
  log : List LogEntry := []
  deriving DecidableEq, Repr, Inhabited

namespace Engine

/-- The answer of a table; what is not in it gets the empty answer. -/
def look {α : Type} [Inhabited α] (table : List (Text × α)) (file : Path) : α :=
  ((table.find? fun e => e.1 == file.text).map (·.2)).getD default

def write (e : Engine) (entry : LogEntry) : Engine := { e with log := entry :: e.log }

/-- Logs a question with the project as it is. -/
def note (question : Question) (s : Service Engine) (file : Path) : Service Engine :=
  let h := s.host
  let scripts := h.scriptNames.map fun p => (p, h.scriptVersion? p)
  let entry := LogEntry.asked question file h.projectVersion scripts h.options.module h.cwd
  { s with engine := s.engine.write entry }

def versionsOf (h : ServiceHost) (p : Path) : Versions := ⟨h.scriptVersion? p, h.projectVersion⟩

/-- Looks at one file through the host. -/
def probe (view : FileView) (s : Service Engine) (p : Path) : Service Engine :=
  let h := s.host
  let (snapshot, after) := h.snapshot view p
  let entry : Probe := {
    file := p
    isPresent := h.hasFile view p
    text := h.read? view p
    before := versionsOf h p
    snapshot
    after := versionsOf after p }
  { s with engine := s.engine.write (.probed entry), host := after }

def transpile (e : Engine) (source : Text) (file : Path) (options : CompilerOptions)
    (report : Bool) : Transpiled × Engine :=
  let answer : TranspileAnswer := look e.transpiles file
  ({ code := answer.code.getD source, map := answer.map, diagnostics := answer.diagnostics },
    e.write (.transpiled file options report))

def emitFile (view : FileView) (s : Service Engine) (file : Path) : Emitted × Service Engine :=
  let s := note .emit s file
  (look s.engine.emits file, s.engine.probes.foldl (probe view) s)

def checkSyntax (s : Service Engine) (file : Path) : List Diagnostic × Service Engine :=
  (look s.engine.syntactic file, note .syntactic s file)

def checkTypes (s : Service Engine) (file : Path) : List Diagnostic × Service Engine :=
  (look s.engine.semantic file, note .semantic s file)

def modulesOf (s : Service Engine) (file : Path) : List Path × Service Engine :=
  (look s.engine.modules file, note .modules s file)

/-- A bound on the number of different modules: all are in the table. -/
def moduleBound (s : Service Engine) : Nat :=
  (s.engine.modules.flatMap (·.2)).length

end Engine
end Scripted
end TestTransform

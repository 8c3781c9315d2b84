/-
The miniature compiler as an engine.

It does the work that a TypeScript compiler is asked for on a small part of the language,
and counts what it is asked, so that one can see how much work a project causes.
-/
import TestTransform.Engine.Emitted
import TestTransform.Engine.Service
import TestTransform.Miniature.Check
import TestTransform.Miniature.Emit

namespace TestTransform
namespace Miniature

/-- What an engine was asked so far, by all services on it together. -/
structure Work where
  emits : Nat := 0
  transpiles : Nat := 0
  semanticChecks : Nat := 0
  /-- Checks of types that have no end.  A program that asks for one uses up its stack. -/
  endlessChecks : Nat := 0
  /-- How often a service saw the project in another state than the time before. -/
  programBuilds : Nat := 0
  /-- The files of the program at the last emit. -/
  programFiles : List Path := []
  deriving DecidableEq, Repr, Inhabited

structure Engine where
  version : Text
  work : Work := {}
  /-- The files for which nothing is to be emitted, normalized. -/
  skipped : List Path := []
  deriving DecidableEq, Repr, Inhabited

namespace Engine

/-- The version of an engine that is given none. -/
def defaultVersion : Text := "5.4.5-fake"

/-- Makes the engine decline to emit a file. -/
def skipEmit (e : Engine) (p : Path) : Engine := { e with skipped := p.normalize :: e.skipped }

def skips (e : Engine) (p : Path) : Bool := e.skipped.any p.normalize.same

/-- Transpiles a text on its own; only braces are checked, and only if that is asked for. -/
def transpile (e : Engine) (source : Text) (file : Path) (options : CompilerOptions)
    (report : Bool) : Transpiled × Engine :=
  let (code, map) := emit source file options
  ({ code, map, diagnostics := if report then syntacticDiagnostics source file else [] },
    { e with work := { e.work with transpiles := e.work.transpiles + 1 } })

end Engine

/-! ## Services -/

namespace Engine

/-- Counts some work. -/
def count (change : Work → Work) (s : Service Engine) : Service Engine :=
  { s with engine := { s.engine with work := change s.engine.work } }

/-- Looks at the project.  A state other than the last one is a new program. -/
def sync (s : Service Engine) : Service Engine :=
  if s.seen == some s.host.projectVersion then s
  else
    { count (fun w => { w with programBuilds := w.programBuilds + 1 }) s with
      seen := some s.host.projectVersion }

/-- The files for a text: its map, if the options ask for one, and its JavaScript. -/
def filesFor (source : Text) (file : Path) (options : CompilerOptions) : List EmittedFile :=
  let (code, map) := emit source file options
  let name := outputName file
  (map.map fun m => EmittedFile.mk (name.append ".map") m).toList ++ [⟨name, code⟩]

/-- Emits a file of the project.  Declarations come without output. -/
def emitFile (view : FileView) (s : Service Engine) (file : Path) : Emitted × Service Engine :=
  let s := sync (count (fun w => { w with emits := w.emits + 1 }) s)
  let s := count (fun w => { w with programFiles := s.host.scriptNames }) s
  if s.engine.skips file then ({ skipped := true }, s)
  else if file.isDeclaration then ({}, s)
  else
    match s.snapshot view file with
    | (none, s) => ({ skipped := true }, s)
    | (some text, s) => ({ files := filesFor text file s.host.options }, s)

/-- Checks the braces of a file. -/
def checkSyntax (view : FileView) (s : Service Engine) (file : Path) :
    List Diagnostic × Service Engine :=
  let (text, s) := (sync s).snapshot view file
  ((text.map fun t => syntacticDiagnostics t file).getD [], s)

/-- How many steps a search for a type may take before it is taken for endless.  A step through
an import does not look at the depth of a search, so where imports lead round in a circle
nothing ends it. -/
def searchLimit : Nat := 20000

/-- Checks the names and types of a file. -/
def checkTypes (view : FileView) (s : Service Engine) (file : Path) :
    List Diagnostic × Service Engine :=
  let s := sync (count (fun w => { w with semanticChecks := w.semanticChecks + 1 }) s)
  let (found, s) := s.ask fun h => semanticDiagnostics view searchLimit h file
  let endless := if found.ended then 0 else 1
  (found.diagnostics, count (fun w => { w with endlessChecks := w.endlessChecks + endless }) s)

/-- The modules that a file imports directly. -/
def modulesOf (view : FileView) (s : Service Engine) (file : Path) :
    List Path × Service Engine :=
  (sync s).ask fun h => resolvedModules view h file

/-- A bound on the number of different modules: all are files known or on disk. -/
def moduleBound (view : FileView) (s : Service Engine) : Nat :=
  s.host.files.records.length + view.count

end Engine
end Miniature
end TestTransform

/-
The engines that do the work of compiling, and the services on them.
-/
import TestTransform.Miniature.Engine
import TestTransform.Scripted.Engine

namespace TestTransform

inductive Engine where
  | miniature (engine : Miniature.Engine)
  | scripted (engine : Scripted.Engine)
  deriving DecidableEq, Repr, Inhabited

namespace Engine

def version : Engine → Text
  | miniature e => e.version
  | scripted e => e.version

/-- Whether a check of types was asked for that has no end. -/
def isStuck : Engine → Bool
  | miniature e => e.work.endlessChecks != 0
  | scripted _ => false

/-- Transpiles a text on its own. -/
def transpile (source : Text) (file : Path) (options : CompilerOptions) (report : Bool) :
    Engine → Transpiled × Engine
  | miniature e =>
    let (out, e) := e.transpile source file options report
    (out, miniature e)
  | scripted e =>
    let (out, e) := e.transpile source file options report
    (out, scripted e)

/-- Puts a question to whichever engine a service is on. -/
def dispatch {α : Type} (s : Service Engine)
    (onMiniature : Service Miniature.Engine → α × Service Miniature.Engine)
    (onScripted : Service Scripted.Engine → α × Service Scripted.Engine) : α × Service Engine :=
  match s.engine with
  | miniature e =>
    let (answer, t) := onMiniature { engine := e, host := s.host, seen := s.seen }
    (answer, { engine := miniature t.engine, host := t.host, seen := t.seen })
  | scripted e =>
    let (answer, t) := onScripted { engine := e, host := s.host, seen := s.seen }
    (answer, { engine := scripted t.engine, host := t.host, seen := t.seen })

/-- Emits a file of the project. -/
def emitFile (view : FileView) (s : Service Engine) (file : Path) : Emitted × Service Engine :=
  dispatch s (Miniature.Engine.emitFile view · file) (Scripted.Engine.emitFile view · file)

def checkSyntax (view : FileView) (s : Service Engine) (file : Path) :
    List Diagnostic × Service Engine :=
  dispatch s (Miniature.Engine.checkSyntax view · file) (Scripted.Engine.checkSyntax · file)

def checkTypes (view : FileView) (s : Service Engine) (file : Path) :
    List Diagnostic × Service Engine :=
  dispatch s (Miniature.Engine.checkTypes view · file) (Scripted.Engine.checkTypes · file)

/-- All diagnostics of a file, those on its syntax first. -/
def check (view : FileView) (s : Service Engine) (file : Path) :
    List Diagnostic × Service Engine :=
  let (syntactic, s) := checkSyntax view s file
  let (semantic, s) := checkTypes view s file
  (syntactic ++ semantic, s)

/-- The modules that a file imports directly. -/
def modulesOf (view : FileView) (s : Service Engine) (file : Path) :
    List Path × Service Engine :=
  dispatch s (Miniature.Engine.modulesOf view · file) (Scripted.Engine.modulesOf · file)

/-- A bound on the number of different modules that the files of a project import. -/
def moduleBound (view : FileView) (s : Service Engine) : Nat :=
  match s.engine with
  | miniature e =>
    Miniature.Engine.moduleBound view { engine := e, host := s.host, seen := s.seen }
  | scripted e => Scripted.Engine.moduleBound { engine := e, host := s.host, seen := s.seen }

end Engine
end TestTransform

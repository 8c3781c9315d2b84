/-
What transformers share: the files, the engines, the environment, and what has been
handed on to others.
-/
import TestTransform.Compiler.Basic

namespace TestTransform

structure TransformedSource where
  code : Text
  map : Option Text := none
  deriving DecidableEq, Repr, Inhabited

/-- A transformer that takes over the result, such as one for newer syntax. -/
structure Fallback where
  name : Text
  run : (source : Text) → (file : Path) → (instrument : Bool) → Except Text TransformedSource

namespace Fallback

def mark : Text := "/* babel */\n"

/-- A fallback that puts a mark in front of what it is given. -/
def marking (name : Text) : Fallback where
  name
  run := fun source _ _ => .ok { code := mark ++ source }

end Fallback

structure World where
  disk : Disk := {}
  /-- The engines, by the numbers that registries hold. -/
  engines : List Engine := []
  /-- The value of the variable that lists further codes to ignore. -/
  ignoreCodes : Option Text := none
  /-- The diagnostics that were handed on, in the order of their arrival. -/
  reported : List Diagnostic := []
  /-- The calls of the fallback: for which file, and whether to instrument it. -/
  fallbackCalls : List (Path × Bool) := []
  deriving Repr, Inhabited

namespace World

def view (w : World) : FileView := w.disk.view

def engine (w : World) (id : Nat) : Engine := w.engines.getD id default

/-- Whether some engine is at a check that has no end.  Nothing is answered in such a world. -/
def isStuck (w : World) : Bool := w.engines.any Engine.isStuck

/-- What a compiler on one of the engines works in. -/
def surroundings (w : World) (id : Nat) : Surroundings :=
  { disk := w.disk, engine := w.engine id, reported := w.reported }

/-- The world after a compiler on one of the engines has worked in it. -/
def update (w : World) (id : Nat) (s : Surroundings) : World :=
  { w with disk := s.disk, engines := w.engines.set id s.engine, reported := s.reported }

/-- Hands on a warning. -/
def warn (w : World) (code : Nat) (message : Text) : World :=
  { w with reported := w.reported ++ [Diagnostic.warning code message] }

end World

namespace Compiler

/-- The number of the engine that a compiler works with. -/
def engineId (c : Compiler) : Nat := c.config.compiler.id

/-- Compiles a file in the world. -/
def compileIn (w : World) (c : Compiler) (content : Text) (file : Path)
    (options : TransformOptions) : Except CompileError CompiledOutput × Compiler × World :=
  let (outcome, after, s) := c.compile content file options (w.surroundings c.engineId)
  (outcome, after, w.update c.engineId s)

/-- All modules that a file reaches in the world. -/
def resolvedModulesIn (w : World) (c : Compiler) (content : Text) (file : Path) :
    List Path × Compiler × World :=
  let (modules, after, s) := c.resolvedModules content file (w.surroundings c.engineId)
  (modules, after, w.update c.engineId s)

end Compiler
end TestTransform

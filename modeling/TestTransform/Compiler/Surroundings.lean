/-
What a compiler works in: the files, an engine, and the diagnostics handed on so far.

A failed step keeps what it changed before it failed.  So a step gives its outcome and the
new state side by side.
-/
import TestTransform.Config.Set
import TestTransform.Compiler.Output
import TestTransform.Engine.Basic
import TestTransform.Files.Store

namespace TestTransform

structure Surroundings where
  disk : Disk
  engine : Engine
  /-- The diagnostics that were let through, in the order of their arrival. -/
  reported : List Diagnostic := []
  deriving Repr, Inhabited

namespace Surroundings

def view (w : Surroundings) : FileView := w.disk.view

/-- Hands on the diagnostics of a file as warnings, or fails with those that are not let
through. -/
def raise (w : Surroundings) (config : ConfigSet) (ds : List Diagnostic) (file : Path) :
    Except CompileError Unit × Surroundings :=
  match config.judge ds file with
  | .error important => (.error (config.errorFor w.disk.read? important), w)
  | .ok warnings => (.ok (), { w with reported := w.reported ++ warnings })

end Surroundings
end TestTransform

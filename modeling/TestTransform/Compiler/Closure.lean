/-
The walk over imports: all modules that a file reaches, breadth first.

How a file's own imports are found is an argument, and may change a state.  The walk
stays out of `node_modules`, and the file it starts from is not one of its results, also
if it is imported.
-/
import TestTransform.Path.Resolve

namespace TestTransform
namespace Closure

variable {σ : Type}

/-- Adds the modules that are new to those found, in their order. -/
def addNew (start : Path) (found : List Path) : List Path → List Path
  | [] => []
  | m :: ms =>
    let p := m.normalize
    if p.same start || p.inNodeModules || found.any p.same then addNew start found ms
    else p :: addNew start (found ++ [p]) ms

/-- Takes files from the queue until it is empty.  What is queued was found and is queued
once, so a walk that finds `n` modules needs a fuel of `n + 2`. -/
def walk (resolve : σ → Path → List Path × σ) (start : Path) :
    (fuel : Nat) → (queue found : List Path) → σ → List Path × σ
  | 0, _, found, s => (found, s)
  | _ + 1, [], found, s => (found, s)
  | fuel + 1, file :: queue, found, s =>
    let (modules, s) := resolve s file
    let new := addNew start found modules
    walk resolve start fuel (queue ++ new) (found ++ new) s

/-- All modules that a file reaches, given a bound on how many there are. -/
def of (resolve : σ → Path → List Path × σ) (bound : Nat) (start : Path) (s : σ) :
    List Path × σ :=
  walk resolve start (bound + 2) [start] [] s

end Closure
end TestTransform

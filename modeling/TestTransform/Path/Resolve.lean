/-
Resolving paths by their text alone, so that it works for files that do not exist.
-/
import TestTransform.Path.Basic

namespace TestTransform
namespace Path

/-- One component onto a stack of components, the last one on top.  `..` takes the top
away; where there is nothing to take, it is put down itself and becomes a top like any
other. -/
def pushComponent (stack : List Component) : Component → List Component
  | .current => stack
  | .parent =>
    match stack with
    | [] => [.parent]
    | [.root] => [.parent, .root]
    | _ :: rest => rest
  | c => c :: stack

/-- The components that are left when `.` is dropped and `..` takes its parent away. -/
def normalComponents (cs : List Component) : List Component :=
  (cs.foldl pushComponent []).reverse

/-- The path without `.`, and with `..` folded into what stands before it. -/
def normalize (p : Path) : Path := ofComponents (normalComponents p.components)

/-- The normal form of `p` as seen from the directory `base`. -/
def resolve (base p : Path) : Path :=
  if p.isAbsolute then p.normalize else (base.join p).normalize

end Path
end TestTransform

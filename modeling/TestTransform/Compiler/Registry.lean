/-
Compilers by name.
-/
import TestTransform.Config.Error

namespace TestTransform

/-- A compiler at hand: its number among the compilers there are, and its version. -/
structure CompilerHandle where
  id : Nat
  version : Text
  deriving DecidableEq, Repr, Inhabited

/-- The registered compilers, sorted by name. -/
structure CompilerRegistry where
  entries : List (Text × CompilerHandle) := []
  deriving DecidableEq, Repr, Inhabited

namespace CompilerRegistry

/-- The name of the compiler used when none is named. -/
def defaultName : Text := "typescript"

/-- Registers a compiler; one registered under the same name before is replaced. -/
def register (r : CompilerRegistry) (name : Text) (c : CompilerHandle) : CompilerRegistry :=
  ⟨Assoc.insert Text.cmp name c r.entries⟩

def names (r : CompilerRegistry) : List Text := r.entries.map (·.1)

def resolve (r : CompilerRegistry) (name : Text) : Except ConfigError CompilerHandle :=
  match Assoc.find? Text.cmp name r.entries with
  | some c => .ok c
  | none => .error (.unknownCompiler name r.names)

end CompilerRegistry
end TestTransform

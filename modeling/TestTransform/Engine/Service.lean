/-
A language service: an engine at work on one project.
-/
import TestTransform.Compiler.ServiceHost

namespace TestTransform

/-- An engine together with the project as it sees it. -/
structure Service (ε : Type) where
  engine : ε
  host : ServiceHost
  /-- The state of the project that the service looked at last. -/
  seen : Option Nat := none
  deriving Repr, Inhabited

namespace Service

variable {ε : Type}

/-- The text of a file.  A file not known yet is read and known from then on. -/
def snapshot (view : FileView) (s : Service ε) (file : Path) : Option Text × Service ε :=
  let (text, host) := s.host.snapshot view file
  (text, { s with host })

/-- Runs a question that only needs the host. -/
def ask {α : Type} (s : Service ε) (question : ServiceHost → α × ServiceHost) : α × Service ε :=
  let (answer, host) := question s.host
  (answer, { s with host })

end Service
end TestTransform

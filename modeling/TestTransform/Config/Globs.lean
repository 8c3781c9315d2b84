/-
The globs of a configuration.
-/
import TestTransform.Config.Error
import TestTransform.Glob.Reading

namespace TestTransform
namespace Glob

/-- Reads globs.  A text that is no glob is reported alone; if all are, but some glob cannot
be made, all of them are reported together. -/
def readAll (separated : Bool) (sources : List Text) : Except ConfigError (List Glob) := do
  let spelled ← sources.mapM fun t =>
    match tokens? t with
    | some tokens => .ok tokens
    | none => .error (.invalidGlob t)
  match spelled.mapM (ofTokens? separated) with
  | some globs => .ok globs
  | none => .error (.invalidGlob (Text.join ", ".toList sources))

end Glob
end TestTransform

/-
Why a file cannot be compiled.
-/
import TestTransform.Files.Basic

namespace TestTransform

inductive CompileError where
  /-- Diagnostics that were not to be let through, as shown and by their codes. -/
  | diagnostics (shown : Text) (codes : List Nat)
  | emitSkipped (file : Path)
  | noOutput (file : Path)
  | missingReferencedOutput (input expected project : Path)
  | io (path : Path) (error : FileError)
  deriving DecidableEq, Repr

namespace CompileError

def message : CompileError → Text
  | diagnostics shown _ => "Unable to compile TypeScript:\n" ++ shown
  | emitSkipped file => file.text ++ ": Emit skipped for language service"
  | noOutput file =>
    "Unable to require `.d.ts` file.\nThis is usually the result of a faulty configuration " ++
      ("or import. Make sure there is a `.js`, `.json` or another executable extension " : Text) ++
      "available alongside `" ++ file.text ++ "`."
  | missingReferencedOutput input expected project =>
    "Could not find output JavaScript file for input " ++ input.text ++ " (looked at " ++
      expected.text ++ ").\nThe input file is part of a project reference located at " ++
      project.text ++ ", so the pre-built output is read from disk. " ++
      "Try running `tsc --build` to build project references."
  | io path e => "IO error reading " ++ path.text ++ ": " ++ e.message

/-- The codes of the diagnostics; other errors have none. -/
def codes : CompileError → List Nat
  | diagnostics _ codes => codes
  | _ => []

end CompileError
end TestTransform

/-
What the name of a file says about its content.
-/
import TestTransform.Path.Basic

namespace TestTransform

/-- Whether a file declares types only. -/
def Path.isDeclaration (p : Path) : Bool :=
  let name := p.name?.getD []
  Text.endsWith name ".d.ts" || Text.endsWith name ".d.mts" || Text.endsWith name ".d.cts"

inductive FileKind where
  | typeScript
  | javaScript
  | other
  deriving DecidableEq, Repr, Inhabited

namespace FileKind

def typeScriptExtensions : List Text := ["ts", "tsx", "mts", "cts"]

def javaScriptExtensions : List Text := ["js", "jsx", "mjs", "cjs"]

/-- Files are told apart by their extension. -/
def ofPath (p : Path) : FileKind :=
  match p.extension? with
  | none => other
  | some ext =>
    if typeScriptExtensions.contains ext then typeScript
    else if javaScriptExtensions.contains ext then javaScript
    else other

end FileKind
end TestTransform

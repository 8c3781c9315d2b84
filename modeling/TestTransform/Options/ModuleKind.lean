/-
Module systems of the emitted JavaScript.
-/
import TestTransform.Options.Target

namespace TestTransform

inductive ModuleKind where
  | none
  | commonJs
  | amd
  | umd
  | system
  | es2015
  | es2020
  | es2022
  | esNext
  | node16
  | nodeNext
  deriving DecidableEq, Repr, Inhabited

namespace ModuleKind

def text : ModuleKind → Text
  | none => "none"
  | commonJs => "commonjs"
  | amd => "amd"
  | umd => "umd"
  | system => "system"
  | es2015 => "es2015"
  | es2020 => "es2020"
  | es2022 => "es2022"
  | esNext => "esnext"
  | node16 => "node16"
  | nodeNext => "nodenext"

def all : List ModuleKind :=
  [none, commonJs, amd, umd, system, es2015, es2020, es2022, esNext, node16, nodeNext]

/-- The kinds whose output keeps `import` and `export`. -/
def isEsModule : ModuleKind → Bool
  | es2015 | es2020 | es2022 | esNext => true
  | _ => false

/-- Kinds are found by their normal spelling; `es6` is another name of `es2015`. -/
def ofText? (t : Text) : Option ModuleKind :=
  let name := normalSpelling t
  if name == "es6" then some es2015 else all.find? fun kind => kind.text == name

end ModuleKind
end TestTransform

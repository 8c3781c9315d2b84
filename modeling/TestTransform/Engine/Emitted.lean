/-
What an engine hands back: the files emitted for a file of a project, and the outcome of
transpiling a text on its own.
-/
import TestTransform.Diagnostic.Basic

namespace TestTransform

structure EmittedFile where
  name : Path
  text : Text
  deriving DecidableEq, Repr, Inhabited

structure Emitted where
  files : List EmittedFile := []
  /-- Whether the engine declined to emit. -/
  skipped : Bool := false
  deriving DecidableEq, Repr, Inhabited

namespace EmittedFile

def isMap (f : EmittedFile) : Bool := Text.endsWith f.name.text ".map"

/-- Whether the file is JavaScript, that is, neither a map nor a file of declarations. -/
def isCode (f : EmittedFile) : Bool := !f.isMap && !Text.endsWith f.name.text ".d.ts"

end EmittedFile

namespace Emitted

/-- The text of the first source map. -/
def map? (e : Emitted) : Option Text := (e.files.find? EmittedFile.isMap).map (·.text)

/-- The text of the first JavaScript file. -/
def code? (e : Emitted) : Option Text := (e.files.find? EmittedFile.isCode).map (·.text)

end Emitted

structure Transpiled where
  code : Text
  map : Option Text := none
  diagnostics : List Diagnostic := []
  deriving DecidableEq, Repr, Inhabited

end TestTransform

/-
The compiler for isolated modules: each file is compiled on its own.

Files of a referenced project are not compiled at all.  What that project's own build
wrote for them is read from disk.
-/
import TestTransform.Compiler.Surroundings

namespace TestTransform
namespace IsolatedCompiler

/-- The output that a referenced project's own build wrote for a file. -/
def readReferenced (disk : Disk) (r : ProjectReference) (file : Path) :
    Except CompileError CompiledOutput :=
  let expected := r.outputFor file
  if disk.hasFile expected then
    match disk.read expected with
    | .ok code => .ok (.finalize code (disk.read? (expected.append ".map")) file)
    | .error e => .error (.io expected e)
  else .error (.missingReferencedOutput file expected r.configPath)

/-- Compiles a text on its own. -/
def transpile (config : ConfigSet) (content : Text) (file : Path) (options : TransformOptions)
    (w : Surroundings) : Except CompileError CompiledOutput × Surroundings :=
  let report := config.shouldReport file
  let (out, engine) := w.engine.transpile content file (config.optionsFor options) report
  let w := { w with engine }
  let (outcome, w) : Except CompileError Unit × Surroundings :=
    if report then w.raise config out.diagnostics file else (.ok (), w)
  (outcome.map fun _ => .finalize out.code out.map file, w)

def compile (config : ConfigSet) (content : Text) (file : Path) (options : TransformOptions)
    (w : Surroundings) : Except CompileError CompiledOutput × Surroundings :=
  let p := file.normalize
  match config.referenceFor? p with
  | some r => (readReferenced w.disk r p, w)
  | none => transpile config content p options w

end IsolatedCompiler
end TestTransform

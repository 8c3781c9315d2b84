/-
The two compilers behind one interface.
-/
import TestTransform.Compiler.Isolated
import TestTransform.Compiler.Language

namespace TestTransform

inductive Compiler where
  | isolated (config : ConfigSet)
  | language (compiler : LanguageCompiler)
  deriving Repr, Inhabited

namespace Compiler

/-- The compiler that a configuration asks for. -/
def create (view : FileView) (config : ConfigSet) : Compiler :=
  if config.isolated then isolated config else language (LanguageCompiler.create view config)

def config : Compiler → ConfigSet
  | isolated config => config
  | language c => c.config

/-- Compiles a file. -/
def compile (content : Text) (file : Path) (options : TransformOptions) (w : Surroundings) :
    Compiler → Except CompileError CompiledOutput × Compiler × Surroundings
  | isolated config =>
    let (outcome, w) := IsolatedCompiler.compile config content file options w
    (outcome, isolated config, w)
  | language compiler =>
    let (outcome, s) := LanguageCompiler.Session.compile ⟨compiler, w⟩ content file options
    (outcome, language s.compiler, s.world)

/-- All modules that a file reaches.  In isolated mode imports are not followed. -/
def resolvedModules (content : Text) (file : Path) (w : Surroundings) :
    Compiler → List Path × Compiler × Surroundings
  | isolated config => ([], isolated config, w)
  | language compiler =>
    let (modules, s) := LanguageCompiler.Session.resolvedModules ⟨compiler, w⟩ content file
    (modules, language s.compiler, s.world)

end Compiler
end TestTransform

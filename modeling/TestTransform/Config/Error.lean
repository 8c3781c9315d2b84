/-
Why a configuration cannot be set up.
-/
import TestTransform.Files.Basic
import TestTransform.Options.Compiler

namespace TestTransform

/-- The options that hold a pattern. -/
inductive PatternOption where
  | testRegex
  | stringifyContentPathRegex
  | diagnosticsPathRegex
  deriving DecidableEq, Repr

def PatternOption.text : PatternOption → Text
  | testRegex => "testRegex"
  | stringifyContentPathRegex => "stringifyContentPathRegex"
  | diagnosticsPathRegex => "diagnostics.pathRegex"

inductive ConfigError where
  | io (path : Path) (error : FileError)
  | invalidJson (path : Path)
  | tsConfigNotFound (path : Path)
  | extendsCycle (path : Path)
  | unknownCompiler (name : Text) (registered : List Text)
  | invalidRegex (option : PatternOption)
  | invalidGlob (pattern : Text)
  | invalidDiagnosticCode (value : Text)
  | invalidHostConfig
  /-- The options under `globals` are not of the expected form. -/
  | invalidHostOptions
  | invalidOption (error : OptionsError)
  deriving DecidableEq, Repr

namespace ConfigError

/-- What went wrong, up to the place where the reader of the refused text has its say. -/
def head : ConfigError → Text
  | io p _ => "IO error reading " ++ p.text ++ ": "
  | invalidJson p => "Invalid JSON in " ++ p.text ++ ": "
  | tsConfigNotFound p => "TypeScript config file not found: " ++ p.text
  | extendsCycle p => "tsconfig extends cycle detected at " ++ p.text
  | unknownCompiler name registered =>
    "Unable to resolve compiler module '" ++ name ++ "' (registered: " ++
      Text.join ", " registered ++ ")"
  | invalidRegex option => "Invalid regular expression for " ++ option.text ++ ": "
  | invalidGlob pattern => "Invalid glob pattern '" ++ pattern ++ "': "
  | invalidDiagnosticCode value => "Invalid diagnostic code '" ++ value ++ "'"
  | invalidHostConfig => "Invalid host configuration: "
  | invalidHostOptions => "Invalid host configuration: globals['ts-jest']: "
  | invalidOption _ => "Invalid value for option 'compilerOptions': "

/-- What the reader of a refused text has to say about it. -/
def detail? : ConfigError → Option Text
  | invalidJson _ => some "the text is not JSON of the expected form"
  | invalidRegex _ => some "the text is not a pattern"
  | invalidGlob _ => some "the text is not a glob"
  | invalidHostConfig => some "the text is not JSON of the expected form"
  | invalidHostOptions => some "the value is not of the expected form"
  | invalidOption .wrongType => some "the value is not of the expected form"
  | _ => none

/-- What follows the head in the library's own words. -/
def tail : ConfigError → Text
  | io _ e => e.message
  | invalidOption e => e.message?.getD []
  | _ => []

def message (e : ConfigError) : Text := e.head ++ e.tail ++ e.detail?.getD []

end ConfigError
end TestTransform

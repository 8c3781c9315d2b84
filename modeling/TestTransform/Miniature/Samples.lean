/-
Sample sources and configuration files for the miniature compiler.
-/
import TestTransform.Text.Basic

namespace TestTransform
namespace Miniature
namespace Samples

/-- Compiles without complaint in both modes. -/
def simpleModule : Text :=
  "export const greeting: string = \"hello\";\n" ++
  ("export function shout(text: string): string \x7b\n    return text.toUpperCase();\n\x7d\n" : Text)

def typedFunction : Text :=
  "export function add(a: number, b: number): number \x7b\n    return a + b;\n\x7d\n"

def interfaceProgram : Text :=
  "interface Point \x7b\n    x: number;\n    y: number;\n\x7d\n" ++
  ("export const origin = \x7b x: 0, y: 0 \x7d;\n" : Text)

/-- Has a type mismatch in its first line. -/
def typeErrorAssignment : Text := "const x: string = 5;\nexport default x;\n"

/-- Lacks a closing brace. -/
def syntaxErrorMissingBrace : Text := "export function broken() \x7b\n    return 1;\n"

/-- A dependency whose value is a text. -/
def dependencyStringValue : Text := "export const value = \"a\";\n"

/-- The same dependency with a number as its value. -/
def dependencyNumberValue : Text := "export const value = 1;\n"

/-- A test that fits its dependency as long as the value is a text. -/
def testImportingDependency : Text :=
  "import \x7b value \x7d from \"./dep\";\nconst checked: string = value;\n" ++
  ("describe(\"dep\", () => \x7b\n" : Text) ++
  ("    it(\"is a string\", () => expect(typeof checked).toBe(\"string\"));\n\x7d);\n" : Text)

def declarationFile : Text := "export declare const value: string;\n"

def plainJavascript : Text := "module.exports = \x7b answer: 42 \x7d;\n"

/-- A configuration file with a comment and trailing commas. -/
def tsconfigCommonjs : Text :=
  "\x7b\n    // comments are allowed\n    \"compilerOptions\": \x7b\n" ++
  ("        \"module\": \"commonjs\",\n        \"target\": \"es2019\",\n" : Text) ++
  ("        \"strict\": true,\n    \x7d\n\x7d\n" : Text)

def tsconfigEsnext : Text :=
  "\x7b \"compilerOptions\": \x7b \"module\": \"esnext\", \"target\": \"es2020\" \x7d \x7d"

/-- The samples by name. -/
def all : List (Text × Text) :=
  [ ("simple_module", simpleModule),
    ("typed_function", typedFunction),
    ("interface_program", interfaceProgram),
    ("type_error_assignment", typeErrorAssignment),
    ("syntax_error_missing_brace", syntaxErrorMissingBrace),
    ("dependency_string_value", dependencyStringValue),
    ("dependency_number_value", dependencyNumberValue),
    ("test_importing_dependency", testImportingDependency),
    ("declaration_file", declarationFile),
    ("plain_javascript", plainJavascript),
    ("tsconfig_commonjs", tsconfigCommonjs),
    ("tsconfig_esnext", tsconfigEsnext) ]

end Samples
end Miniature
end TestTransform

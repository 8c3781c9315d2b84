/-
What the miniature compiler emits: types are taken out line by line and, for CommonJS,
imports and exports are rewritten.
-/
import TestTransform.Miniature.Lines
import TestTransform.Options.Compiler
import TestTransform.Json.Printer

namespace TestTransform
namespace Miniature

/-! ## Lines -/

/-- Takes the annotations out of a line.  Results and parameters are looked for only in
lines with a function. -/
def stripAnnotations (line : Text) : Text :=
  let line := Pattern.replaceAll variableAnnotation
    (fun m => m.textOf line 1 ++ " " ++ m.textOf line 2 ++ m.textOf line 3) line
  if Text.occursIn "function" line || Text.occursIn "=>" line then
    let line := Pattern.replaceAll resultAnnotation (fun m => ") " ++ m.textOf line 1) line
    Pattern.replaceAll parameterAnnotation (fun m => m.textOf line 1 ++ m.textOf line 2) line
  else line

/-- A line rewritten to CommonJS, with the names it exports; nothing if the line is no
module syntax. -/
def rewriteModuleSyntax? (line : Text) : Option (Text × List Text) :=
  let find (p : Pattern) : Option Pattern.Match := Pattern.search p line
  match find importNamed with
  | some m =>
    let bindings := Text.replace " as " ": " (m.textOf line 1)
    some ("const \x7b" ++ bindings ++ "\x7d = require(\"" ++ m.textOf line 2 ++ "\");", [])
  | none =>
  match find importNamespace with
  | some m => some ("const " ++ m.textOf line 1 ++ " = require(\"" ++ m.textOf line 2 ++ "\");", [])
  | none =>
  match find importDefault with
  | some m =>
    some ("const " ++ m.textOf line 1 ++ " = require(\"" ++ m.textOf line 2 ++ "\").default;", [])
  | none =>
  match find importBare with
  | some m => some ("require(\"" ++ m.textOf line 1 ++ "\");", [])
  | none =>
  match find exportList with
  | some m =>
    some ([], ((Text.splitOn ',' (m.textOf line 1)).map Text.trim).filter fun name => name ≠ [])
  | none =>
  match find exportDeclaration with
  | some m => some (m.textOf line 1 ++ m.textOf line 2 ++ m.rest line, [m.textOf line 3])
  | none =>
  match find exportDefault with
  | some m => some (m.textOf line 1 ++ "exports.default = " ++ m.rest line, [])
  | none => none

/-! ## Whole files -/

structure EmitState where
  /-- The emitted lines, the last one first. -/
  body : List Text := []
  exports : List Text := []
  usesModules : Bool := false
  /-- How many braces of a declaration of types are open. -/
  skipDepth : Nat := 0

/-- Emits one line. -/
def emitLine (esm : Bool) (s : EmitState) (line : Text) : EmitState :=
  let opened := Text.countOf '{' line
  let closed := Text.countOf '}' line
  if s.skipDepth > 0 then { s with skipDepth := s.skipDepth + opened - closed }
  else if Pattern.isMatch typeOnlyImport line then s
  else if Pattern.isMatch typeDeclaration line then { s with skipDepth := opened - closed }
  else
    let line := stripAnnotations line
    if esm then { s with body := line :: s.body }
    else
      match rewriteModuleSyntax? line with
      | some (line, names) =>
        { s with body := line :: s.body, exports := s.exports ++ names, usesModules := true }
      | none => { s with body := line :: s.body }

/-- The line that exports a name. -/
def exportLine (name : Text) : Text := "exports." ++ name ++ " = " ++ name ++ ";\n"

/-- The JavaScript of a source without the comment that names its map. -/
def emitBody (source : Text) (esm : Bool) : Text :=
  let s := (Text.lines source).foldl (emitLine esm) {}
  let head : Text :=
    if esm then []
    else
      "\"use strict\";\n" ++
        (if s.usesModules then
          ("Object.defineProperty(exports, \"__esModule\", \x7b value: true \x7d);\n" : Text)
        else [])
  head ++ s.body.reverse.flatMap (fun line => line ++ ['\n']) ++ s.exports.flatMap exportLine

/-- The JavaScript file for a source file. -/
def outputName (file : Path) : Path :=
  if file.extension? == some "mts".toList then file.withExtension "mjs"
  else if file.extension? == some "cts".toList then file.withExtension "cjs"
  else file.withExtension "js"

/-- The source map of a file. -/
def sourceMap (source : Text) (file : Path) (inlineSources : Bool) : Json :=
  let contents : Option (List Text) := if inlineSources then some [source] else none
  Json.canon <| .obj <|
    Json.optionalField "sourcesContent" Json.ofTexts contents ++
      ([ ("version", Json.ofNat 3),
        ("file", .str ((outputName file).name?.getD [])),
        ("sourceRoot", .str []),
        ("sources", Json.ofTexts [file.name?.getD []]),
        ("names", .arr []),
        ("mappings", .str "AAAA") ] : Json.Fields)

/-- The JavaScript of a source and, if the options ask for one, its map. -/
def emit (source : Text) (file : Path) (options : CompilerOptions) : Text × Option Text :=
  let code := emitBody source options.effectiveModule.isEsModule
  if options.sourceMap.getD false then
    (code ++ "//# sourceMappingURL=" ++ (outputName file).name?.getD [] ++ ".map",
      some (sourceMap source file (options.inlineSources.getD false)).compact)
  else (code, none)

end Miniature
end TestTransform

/-
The options a host passes: those for all files, under its `globals`, and those for one
call.
-/
import TestTransform.Diagnostic.Policy
import TestTransform.Json.Form

namespace TestTransform

/-- Where compiler options come from. -/
inductive TsConfigSource where
  /-- `false` looks for no file at all, `true` for the nearest one. -/
  | toggle (on : Bool)
  /-- A file, relative to the root directory. -/
  | file (path : Text)
  /-- Options that go over those of the nearest file. -/
  | inline (options : Json.Fields)
  deriving DecidableEq, Repr, Inhabited

namespace TsConfigSource

def ofJson? : Json → Option TsConfigSource
  | .bool b => some (toggle b)
  | .str t => some (file t)
  | .obj fields =>
    match Json.canon (.obj fields) with
    | .obj sorted => some (inline sorted)
    | _ => none
  | _ => none

def toJson : TsConfigSource → Json
  | toggle b => .bool b
  | file t => .str t
  | inline fields => .obj fields

end TsConfigSource

/-- The options for all files of a host. -/
structure HostOptions where
  tsconfig : Option TsConfigSource := none
  isolatedModules : Bool := false
  /-- The name under which the compiler is registered. -/
  compiler : Option Text := none
  diagnostics : Option DiagnosticsSetting := none
  stringifyContentPathRegex : Option Text := none
  useEsm : Bool := false
  deriving DecidableEq, Repr, Inhabited

namespace HostOptions

/-- The names that fields go by; `tsConfig` is an older spelling. -/
def fieldNames : List (List Text) :=
  [["tsconfig", "tsConfig"], ["isolatedModules"], ["compiler"], ["diagnostics"],
    ["stringifyContentPathRegex"], ["useESM"]]

def ofJson? (j : Json) : Option HostOptions :=
  match Json.record? fieldNames j with
  | some [tsconfig, isolatedModules, compiler, diagnostics, stringify, useEsm] => do
    let tsconfig ← Json.optional? TsConfigSource.ofJson? tsconfig
    let isolatedModules ← Json.defaulted? false Json.asBool? isolatedModules
    let compiler ← Json.optional? Json.asText? compiler
    let diagnostics ← Json.optional? DiagnosticsSetting.ofJson? diagnostics
    let stringifyContentPathRegex ← Json.optional? Json.asText? stringify
    let useEsm ← Json.defaulted? false Json.asBool? useEsm
    some { tsconfig, isolatedModules, compiler, diagnostics, stringifyContentPathRegex, useEsm }
  | _ => none

def toJson (o : HostOptions) : Json :=
  let isolated : Json.Fields := [("isolatedModules", .bool o.isolatedModules)]
  let esm : Json.Fields := [("useESM", .bool o.useEsm)]
  .obj (Json.optionalField "tsconfig" TsConfigSource.toJson o.tsconfig ++ isolated ++
    Json.optionalField "compiler" .str o.compiler ++
    Json.optionalField "diagnostics" DiagnosticsSetting.toJson o.diagnostics ++
    Json.optionalField "stringifyContentPathRegex" .str o.stringifyContentPathRegex ++ esm)

/-- Reads the options straight from a text, in which unknown fields may hold anything. -/
def ofText? (t : Text) : Option HostOptions :=
  ((Json.Form.ofText? t).bind (Json.knownFields? Json.Form.maxDepth fieldNames.flatten)).bind ofJson?

end HostOptions

/-- The options for one call. -/
structure TransformOptions where
  instrument : Bool := false
  supportsEsm : Bool := false
  deriving DecidableEq, Repr, Inhabited

namespace TransformOptions

def ofJson? (j : Json) : Option TransformOptions :=
  match Json.record? [["instrument"], ["supportsStaticESM"]] j with
  | some [instrument, supportsEsm] => do
    let instrument ← Json.defaulted? false Json.asBool? instrument
    let supportsEsm ← Json.defaulted? false Json.asBool? supportsEsm
    some { instrument, supportsEsm }
  | _ => none

def toJson (o : TransformOptions) : Json :=
  .obj [("instrument", .bool o.instrument), ("supportsStaticESM", .bool o.supportsEsm)]

end TransformOptions
end TestTransform

/-
The JSON form of a scripted engine's tables and of its log.

Tables are objects whose names are the texts of paths.  What is missing is empty.
-/
import TestTransform.Scripted.Engine

namespace TestTransform
namespace Scripted

/-! ## Tables -/

def member (name : Text) : Json → Json
  | .obj fields => (Json.field? name fields).getD .null
  | _ => .null

def texts (j : Json) : List Text := j.asTexts?.getD []

def items : Json → List Json
  | .arr xs => xs
  | _ => []

def diagnostics (j : Json) : List Diagnostic := (items j).filterMap Diagnostic.ofJson?

def emittedFile? (j : Json) : Option EmittedFile :=
  match texts j with
  | [name, text] => some ⟨⟨name⟩, text⟩
  | _ => none

def emitted (j : Json) : Emitted :=
  { files := (items (member "files" j)).filterMap emittedFile?
    skipped := (member "skipped" j).asBool?.getD false }

def transpileAnswer (j : Json) : TranspileAnswer :=
  { code := (member "text" j).asText?
    map := (member "map" j).asText?
    diagnostics := diagnostics (member "diagnostics" j) }

/-- A table, its values read by `read`. -/
def table {α : Type} (name : Text) (read : Json → α) (j : Json) : List (Text × α) :=
  ((member name j).asFields?.getD []).map fun e => (e.1, read e.2)

/-- Reads the tables of an engine. -/
def Engine.ofJson (j : Json) : Engine :=
  { version := (member "version" j).asText?.getD "scripted"
    emits := table "emit" emitted j
    syntactic := table "syntactic" diagnostics j
    semantic := table "semantic" diagnostics j
    modules := table "modules" (fun v => (texts v).map Path.mk) j
    transpiles := table "transpile" transpileAnswer j
    probes := (texts (member "probe" j)).map Path.mk }

/-! ## Log -/

def Question.text : Question → Text
  | emit => "emit"
  | syntactic => "syntactic"
  | semantic => "semantic"
  | modules => "modules"

def pathJson (p : Path) : Json := .str p.text

def textJson (t : Option Text) : Json := Json.ofOption .str t

def versionJson (v : Option Nat) : Json := Json.ofOption Json.ofNat v

def LogEntry.toJson : LogEntry → Json
  | asked question file projectVersion scripts module cwd =>
    .obj
      [ ("call", .str question.text),
        ("file", pathJson file),
        ("projectVersion", Json.ofNat projectVersion),
        ("scripts", .arr (scripts.map fun e => .arr [pathJson e.1, versionJson e.2])),
        ("module", textJson (module.map (·.text))),
        ("cwd", pathJson cwd) ]
  | probed p =>
    .obj
      [ ("call", .str "probe"),
        ("file", pathJson p.file),
        ("exists", .bool p.isPresent),
        ("read", textJson p.text),
        ("versionBefore", versionJson p.before.file),
        ("projectBefore", Json.ofNat p.before.project),
        ("snapshot", textJson p.snapshot),
        ("versionAfter", versionJson p.after.file),
        ("projectAfter", Json.ofNat p.after.project) ]
  | transpiled file options report =>
    .obj
      [ ("call", .str "transpile"),
        ("file", pathJson file),
        ("options", options.toJson),
        ("reportDiagnostics", .bool report) ]

end Scripted
end TestTransform

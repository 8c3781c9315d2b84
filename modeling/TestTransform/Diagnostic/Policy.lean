/-
Which diagnostics are reported, and whether they fail a compilation.
-/
import TestTransform.Diagnostic.Basic
import TestTransform.Diagnostic.Code
import TestTransform.Config.Error
import TestTransform.Pattern.Size
import TestTransform.Pattern.Match

namespace TestTransform

/-! ## The setting as written -/

inductive CodeItem where
  | number (code : Nat)
  | text (t : Text)
  deriving DecidableEq, Repr, Inhabited

inductive CodeList where
  | one (item : CodeItem)
  | many (items : List CodeItem)
  deriving DecidableEq, Repr, Inhabited

structure DiagnosticsOptions where
  pretty : Option Bool := none
  ignoreCodes : Option CodeList := none
  pathRegex : Option Text := none
  warnOnly : Bool := false
  deriving DecidableEq, Repr, Inhabited

/-- A switch, or the details. -/
inductive DiagnosticsSetting where
  | toggle (on : Bool)
  | options (o : DiagnosticsOptions)
  deriving DecidableEq, Repr, Inhabited

namespace CodeItem

def ofJson? : Json → Option CodeItem
  | .str t => some (text t)
  | j => j.asNat32?.map number

def toJson : CodeItem → Json
  | number n => Json.ofNat n
  | text t => .str t

/-- The codes an item stands for; a text may list several. -/
def codes : CodeItem → Except Diagnostic.Code.Invalid (List Nat)
  | number n => .ok [n]
  | text t => Diagnostic.Code.parseList t

end CodeItem

namespace CodeList

def ofJson? : Json → Option CodeList
  | .arr xs => (xs.mapM CodeItem.ofJson?).map many
  | j => (CodeItem.ofJson? j).map one

def toJson : CodeList → Json
  | one item => item.toJson
  | many items => .arr (items.map CodeItem.toJson)

def items : CodeList → List CodeItem
  | one item => [item]
  | many items => items

def codes (l : CodeList) : Except Diagnostic.Code.Invalid (List Nat) :=
  (l.items.mapM CodeItem.codes).map List.flatten

end CodeList

namespace DiagnosticsOptions

def ofJson? (j : Json) : Option DiagnosticsOptions :=
  match Json.record? [["pretty"], ["ignoreCodes"], ["pathRegex"], ["warnOnly"]] j with
  | some [pretty, ignoreCodes, pathRegex, warnOnly] => do
    let pretty ← Json.optional? Json.asBool? pretty
    let ignoreCodes ← Json.optional? CodeList.ofJson? ignoreCodes
    let pathRegex ← Json.optional? Json.asText? pathRegex
    let warnOnly ← Json.defaulted? false Json.asBool? warnOnly
    some { pretty, ignoreCodes, pathRegex, warnOnly }
  | _ => none

def toJson (o : DiagnosticsOptions) : Json :=
  let warnOnly : Json.Fields := [("warnOnly", .bool o.warnOnly)]
  .obj (Json.optionalField "pretty" .bool o.pretty ++
    Json.optionalField "ignoreCodes" CodeList.toJson o.ignoreCodes ++
    Json.optionalField "pathRegex" .str o.pathRegex ++ warnOnly)

end DiagnosticsOptions

namespace DiagnosticsSetting

def ofJson? : Json → Option DiagnosticsSetting
  | .bool b => some (toggle b)
  | j => (DiagnosticsOptions.ofJson? j).map options

def toJson : DiagnosticsSetting → Json
  | toggle b => .bool b
  | options o => o.toJson

end DiagnosticsSetting

/-! ## The policy -/

/-- A pattern together with the text it was read from. -/
structure SourcePattern where
  source : Text
  pattern : Pattern
  deriving DecidableEq, Repr, Inhabited

namespace SourcePattern

def read (option : PatternOption) (source : Text) : Except ConfigError SourcePattern :=
  match Pattern.ofText? source with
  | some pattern => .ok ⟨source, pattern⟩
  | none => .error (.invalidRegex option)

/-- Whether the pattern occurs in the text of a path. -/
def occursIn (p : SourcePattern) (path : Path) : Bool := p.pattern.isMatch path.text

end SourcePattern

structure DiagnosticsPolicy where
  enabled : Bool := true
  pretty : Bool := true
  /-- Whether errors and warnings fail the compilation. -/
  throws : Bool := true
  /-- The ignored codes, rising and without repetition. -/
  ignoreCodes : List Nat
  pathRegex : Option SourcePattern := none
  deriving DecidableEq, Repr, Inhabited

namespace DiagnosticsPolicy

/-- The codes that are never reported: files outside the root directory, an empty list of
files, and no input files. -/
def alwaysIgnored : List Nat := [6059, 18002, 18003]

def sortCodes (codes : List Nat) : List Nat := Sorted.distinct compare codes

/-- The policy for a setting.  Codes of the environment are ignored beside the user's. -/
def ofSetting (setting : Option DiagnosticsSetting) (envCodes : List Nat) :
    Except ConfigError DiagnosticsPolicy :=
  let codes := alwaysIgnored ++ envCodes
  match setting with
  | none | some (.toggle true) => .ok { ignoreCodes := sortCodes codes }
  | some (.toggle false) =>
    .ok { enabled := false, throws := false, ignoreCodes := sortCodes codes }
  | some (.options o) => do
    let own ← match o.ignoreCodes with
      | none => .ok []
      | some l =>
        match l.codes with
        | .ok codes => .ok codes
        | .error e => .error (ConfigError.invalidDiagnosticCode e.value)
    let pathRegex ← match o.pathRegex with
      | none => .ok none
      | some t => (SourcePattern.read .diagnosticsPathRegex t).map some
    .ok {
      pretty := o.pretty.getD true
      throws := !o.warnOnly
      ignoreCodes := sortCodes (codes ++ own)
      pathRegex }

/-- Whether diagnostics of a file are wanted at all. -/
def shouldReport (p : DiagnosticsPolicy) (file : Path) : Bool :=
  p.enabled &&
    match p.pathRegex with
    | some r => r.occursIn file
    | none => true

/-- Whether a diagnostic is kept: its code is not ignored, and its file, if it has one, is
wanted. -/
def keeps (p : DiagnosticsPolicy) (d : Diagnostic) : Bool :=
  !Sorted.search compare d.code p.ignoreCodes &&
    match d.file with
    | some f => p.shouldReport f
    | none => true

def filter (p : DiagnosticsPolicy) (ds : List Diagnostic) : List Diagnostic := ds.filter p.keeps

end DiagnosticsPolicy
end TestTransform

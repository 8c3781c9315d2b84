/-
The configuration a host hands over: where the project is, which files are tests, and
the options under its globals.
-/
import TestTransform.Host.Options

namespace TestTransform

/-- One pattern or a list of them. -/
inductive OneOrMany where
  | one (value : Text)
  | many (values : List Text)
  deriving DecidableEq, Repr, Inhabited

namespace OneOrMany

def ofJson? : Json → Option OneOrMany
  | .str t => some (one t)
  | j => j.asTexts?.map many

def toJson : OneOrMany → Json
  | one t => .str t
  | many ts => Json.ofTexts ts

def toList : OneOrMany → List Text
  | one t => [t]
  | many ts => ts

end OneOrMany

structure HostConfig where
  rootDir : Path
  cwd : Option Path := none
  cacheDirectory : Option Path := none
  testMatch : List Text := []
  testRegex : Option OneOrMany := none
  /-- The globals, sorted by name. -/
  globals : Json.Fields := []
  deriving DecidableEq, Repr, Inhabited

namespace HostConfig

/-- The name under which the globals hold the options. -/
def optionsKey : Text := "ts-jest"

/-- What stands for the root directory in paths and globs. -/
def rootDirToken : Text := "<rootDir>"

/-! ## JSON form -/

def fieldNames : List (List Text) :=
  [["rootDir"], ["cwd"], ["cacheDirectory"], ["testMatch"], ["testRegex"], ["globals"]]

/-- The fields of an object, sorted, with their values in canonical form. -/
def globals? (j : Json) : Option Json.Fields := j.canon.asFields?

def ofJson? (j : Json) : Option HostConfig :=
  match Json.record? fieldNames j with
  | some [rootDir, cwd, cacheDirectory, testMatch, testRegex, globals] => do
    let rootDir ← Json.required? Json.asText? rootDir
    let cwd ← Json.optional? Json.asText? cwd
    let cacheDirectory ← Json.optional? Json.asText? cacheDirectory
    let testMatch ← Json.defaulted? [] Json.asTexts? testMatch
    let testRegex ← Json.optional? OneOrMany.ofJson? testRegex
    let globals ← Json.defaulted? [] globals? globals
    some {
      rootDir := ⟨rootDir⟩
      cwd := cwd.map Path.mk
      cacheDirectory := cacheDirectory.map Path.mk
      testMatch, testRegex, globals }
  | _ => none

/-- Reads a configuration straight from a text, in which unknown fields may hold
anything. -/
def ofText (t : Text) : Except ConfigError HostConfig :=
  match ((Json.Form.ofText? t).bind
      (Json.knownFields? Json.Form.maxDepth fieldNames.flatten)).bind ofJson? with
  | some h => .ok h
  | none => .error .invalidHostConfig

def pathJson (p : Path) : Json := .str p.text

/-- Fields without a value and empty lists are left out. -/
def toJson (h : HostConfig) : Json :=
  let root : Json.Fields := [("rootDir", pathJson h.rootDir)]
  let nonEmpty {α : Type} (xs : List α) : Option (List α) := if xs.isEmpty then none else some xs
  .obj (root ++ Json.optionalField "cwd" pathJson h.cwd ++
    Json.optionalField "cacheDirectory" pathJson h.cacheDirectory ++
    Json.optionalField "testMatch" Json.ofTexts (nonEmpty h.testMatch) ++
    Json.optionalField "testRegex" OneOrMany.toJson h.testRegex ++
    Json.optionalField "globals" Json.obj (nonEmpty h.globals))

/-- The text that stands for a configuration. -/
def canonical (h : HostConfig) : Text := h.toJson.compact

/-- Whether two configurations are equal as values: paths by components, numbers as
numbers. -/
def same (h k : HostConfig) : Bool :=
  let samePath (a b : Option Path) : Bool :=
    match a, b with
    | none, none => true
    | some p, some q => p.same q
    | _, _ => false
  h.rootDir.same k.rootDir && samePath h.cwd k.cwd &&
    samePath h.cacheDirectory k.cacheDirectory && h.testMatch == k.testMatch &&
    h.testRegex == k.testRegex && Json.sameFields h.globals k.globals

/-! ## What a configuration says -/

/-- The working directory; the root directory unless one is named. -/
def workingDir (h : HostConfig) : Path := h.cwd.getD h.rootDir

/-- The options under the globals, the default ones if there are none. -/
def options (h : HostConfig) : Except ConfigError HostOptions :=
  match Json.field? optionsKey h.globals with
  | none | some .null => .ok {}
  | some j =>
    match HostOptions.ofJson? j with
    | some o => .ok o
    | none => .error .invalidHostOptions

/-- Puts options under the globals. -/
def withOptions (h : HostConfig) (o : HostOptions) : HostConfig :=
  { h with globals := Assoc.insert Text.cmp optionsKey o.toJson.canon h.globals }

def testRegexes (h : HostConfig) : List Text :=
  match h.testRegex with
  | none => []
  | some r => r.toList

/-- Puts the root directory in place of its token. -/
def expandRoot (h : HostConfig) (t : Text) : Text := Text.replace rootDirToken h.rootDir.text t

/-- A path of the configuration, resolved against the root directory. -/
def resolvePath (h : HostConfig) (t : Text) : Path := h.rootDir.resolve ⟨h.expandRoot t⟩

end HostConfig
end TestTransform

/-
Finding and reading `tsconfig.json` files.

A file may extend others.  What it says itself goes before what it extends, and of the
files that it extends the later ones go before the earlier ones.  Compiler options are
kept as JSON until all files have been read, so that they can be merged name by name.
-/
import TestTransform.Config.Error
import TestTransform.Json.Relaxed

namespace TestTransform

namespace TsConfig

def fileName : Text := "tsconfig.json"

/-- The options that hold a path relative to the file that declares them. -/
def pathOptions : List Text := ["outDir", "rootDir", "baseUrl", "declarationDir", "tsBuildInfoFile"]

/-- A value with its path, if it is a text, resolved against a directory. -/
def resolveValue (dir : Path) : Json → Json
  | .str t => .str (dir.resolve ⟨t⟩).text
  | j => j

/-- Resolves the options that hold a path against a directory. -/
def resolvePathOptions (options : Json.Fields) (dir : Path) : Json.Fields :=
  pathOptions.foldl (fun o name => Assoc.modify Text.cmp name (resolveValue dir) o) options

/-! ## The file as written -/

structure Written where
  bases : List Text := []
  compilerOptions : Json.Fields := []
  files : Option (List Text) := none
  includes : Option (List Text) := none
  excludes : Option (List Text) := none
  references : List Text := []
  deriving DecidableEq, Repr, Inhabited

/-- One file to extend, or several. -/
def bases? : Json → Option (List Text)
  | .str t => some [t]
  | j => j.asTexts?

def reference? (j : Json) : Option Text :=
  match Json.record? [["path"]] j with
  | some [path] => Json.required? Json.asText? path
  | _ => none

def Written.ofJson? (j : Json) : Option Written :=
  match Json.record? [["extends"], ["compilerOptions"], ["files"], ["include"], ["exclude"],
      ["references"]] j with
  | some [bases, compilerOptions, files, includes, excludes, references] => do
    let bases ← Json.optional? bases? bases
    let compilerOptions ← Json.optional? Json.asFields? compilerOptions
    let files ← Json.optional? Json.asTexts? files
    let includes ← Json.optional? Json.asTexts? includes
    let excludes ← Json.optional? Json.asTexts? excludes
    let references ← Json.optional? (Json.items? reference?) references
    some {
      bases := bases.getD []
      compilerOptions := compilerOptions.getD []
      files, includes, excludes
      references := references.getD [] }
  | _ => none

end TsConfig

/-- A configuration file with all that it extends folded in. -/
structure TsConfig where
  path : Path := ⟨[]⟩
  compilerOptions : Json.Fields := []
  /-- Absolute globs. -/
  includes : Option (List Text) := none
  /-- Absolute globs. -/
  excludes : Option (List Text) := none
  /-- Absolute paths. -/
  files : Option (List Path) := none
  /-- The configuration files of the referenced projects. -/
  references : List Path := []
  deriving DecidableEq, Repr, Inhabited

namespace TsConfig

/-- The directory of a configuration file. -/
def dirOf (p : Path) : Path := p.parent?.getD (Path.ofString "/")

/-! ## Finding files -/

/-- The nearest configuration file in a directory or one above it. -/
def find? (view : FileView) (start : Path) : Option Path :=
  (start.ancestors.map fun dir => dir.join ⟨fileName⟩).find? view.hasFile

/-- The path itself if it ends in `.json`, otherwise with that ending. -/
def withJson (p : Path) : Path :=
  if p.extension? == some "json".toList then p else p.append ".json"

/-- The files that a package name may stand for below one directory. -/
def packageCandidates (dir : Path) (name : Text) : List Path :=
  let package := (dir.join ⟨"node_modules"⟩).join ⟨name⟩
  [package.join ⟨fileName⟩, withJson package, package]

/-- Whether an extended name is a path and not the name of a package. -/
def isPathName (name : Text) : Bool := name.head? == some '.' || (Path.mk name).isAbsolute

/-- The file that an extended name stands for: a path relative to the directory, or a
package found by walking up. -/
def resolveBase (view : FileView) (dir : Path) (name : Text) : Except ConfigError Path :=
  if isPathName name then
    let candidate := withJson (dir.resolve ⟨name⟩)
    if view.hasFile candidate then .ok candidate else .error (.tsConfigNotFound candidate)
  else
    match (dir.ancestors.flatMap fun d => packageCandidates d name).find? view.hasFile with
    | some p => .ok p.normalize
    | none => .error (.tsConfigNotFound ((dir.join ⟨"node_modules"⟩).join ⟨name⟩))

/-- The configuration file of a reference: the path itself, or the file of that name in
the directory. -/
def referencePath (view : FileView) (dir : Path) (reference : Text) : Path :=
  let path := dir.resolve ⟨reference⟩
  if view.hasFile path then path else path.join ⟨fileName⟩

/-! ## Reading files -/

def resolveAll (dir : Path) (names : List Text) : List Path := names.map fun t => dir.resolve ⟨t⟩

/-- A file as written, with its paths resolved against its directory. -/
def ofWritten (view : FileView) (path : Path) (w : Written) : TsConfig :=
  let dir := dirOf path
  { path
    compilerOptions := resolvePathOptions w.compilerOptions dir
    includes := w.includes.map fun ps => (resolveAll dir ps).map (·.text)
    excludes := w.excludes.map fun ps => (resolveAll dir ps).map (·.text)
    files := w.files.map (resolveAll dir)
    references := w.references.map (referencePath view dir) }

/-- Puts what `above` says over what `below` says; references are not inherited. -/
def onTopOf (above below : TsConfig) : TsConfig :=
  { above with
    compilerOptions := Assoc.insertAll Text.cmp below.compilerOptions above.compilerOptions
    includes := above.includes <|> below.includes
    excludes := above.excludes <|> below.excludes
    files := above.files <|> below.files }

/-- A read that remembers the files it has come by. -/
abbrev Reader := (visited : List Path) → Path → Except ConfigError (TsConfig × List Path)

/-- Reads the files to extend in their order, each over the ones before it. -/
def readBases (view : FileView) (read : Reader) (dir : Path) :
    List Text → TsConfig → List Path → Except ConfigError (TsConfig × List Path)
  | [], below, visited => .ok (below, visited)
  | name :: names, below, visited => do
    let path ← resolveBase view dir name
    let (base, visited) ← read visited path
    readBases view read dir names (base.onTopOf below) visited

/-- The text of one file as a record. -/
def readWritten (view : FileView) (path : Path) : Except ConfigError Written := do
  let source ← (view.read path).mapError (ConfigError.io path)
  match (Json.Relaxed.ofText? source).bind Written.ofJson? with
  | some w => .ok w
  | none => .error (.invalidJson path)

/-- Reads a file and all that it extends.  A file that was come by before is a cycle; the
fuel bounds the length of a chain of different files. -/
def readChain (view : FileView) : (fuel : Nat) → Reader
  | 0, _, path => .error (.extendsCycle path)
  | fuel + 1, visited, path =>
    if visited.any fun p => p.same path then .error (.extendsCycle path)
    else do
      let w ← readWritten view path
      let own := ofWritten view path w
      let (below, visited) ←
        readBases view (readChain view fuel) (dirOf path) w.bases {} (path :: visited)
      .ok (own.onTopOf below, visited)

/-- Reads a configuration file and all that it extends. -/
def read (view : FileView) (path : Path) : Except ConfigError TsConfig :=
  (readChain view (view.count + 2) [] path.normalize).map (·.1)

/-! ## What reading looks at -/

/-- The files that may be looked at for an extended name. -/
def baseCandidates (dir : Path) (name : Text) : List Path :=
  if isPathName name then [withJson (dir.resolve ⟨name⟩)]
  else dir.ancestors.flatMap fun d => packageCandidates d name

/-- The files that may be looked at for a reference. -/
def referenceCandidates (dir : Path) (reference : Text) : List Path :=
  let path := dir.resolve ⟨reference⟩
  [path, path.join ⟨fileName⟩]

/-- The files that may be looked at because of what a file says. -/
def mentioned (path : Path) (source : Text) : List Path :=
  match (Json.Relaxed.ofText? source).bind Written.ofJson? with
  | none => []
  | some w =>
    let dir := dirOf path
    w.bases.flatMap (baseCandidates dir) ++ w.references.flatMap (referenceCandidates dir)

end TsConfig
end TestTransform

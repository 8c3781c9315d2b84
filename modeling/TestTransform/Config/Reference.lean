/-
Referenced projects, whose output is built separately and read from disk.
-/
import TestTransform.Config.InputFiles

namespace TestTransform

structure ProjectReference where
  configPath : Path
  rootDir : Path
  outDir : Option Path
  includes : Option (List Glob)
  files : Option (List Path)
  deriving DecidableEq, Repr, Inhabited

namespace ProjectReference

/-- A compiler option that holds a path. -/
def pathOption? (c : TsConfig) (name : Text) : Option Path :=
  ((Json.field? name c.compilerOptions).bind Json.asText?).map Path.mk

def load (view : FileView) (configPath : Path) : Except ConfigError ProjectReference := do
  let c ← TsConfig.read view configPath
  let includes ← match c.includes with
    | some ps => (Glob.readAll false ps).map some
    | none => .ok none
  .ok {
    configPath := c.path
    rootDir := (pathOption? c "rootDir").getD (configPath.parent?.getD ⟨[]⟩)
    outDir := pathOption? c "outDir"
    includes
    files := c.files }

/-- Whether the globs of the project, or the lack of them, take a file in. -/
def globsCover (r : ProjectReference) (file : Path) : Bool :=
  match r.includes with
  | some globs => InputFiles.covers globs file
  | none => true

/-- Whether a file is one of the project's inputs. -/
def contains (r : ProjectReference) (file : Path) : Bool :=
  if !file.isBelow r.rootDir || file.isDeclaration then false
  else
    match r.files with
    | some files => files.any file.same || (r.includes.isSome && r.globsCover file)
    | none => r.globsCover file

/-- Where the project's own build writes the JavaScript for a file. -/
def outputFor (r : ProjectReference) (file : Path) : Path :=
  let base := match r.outDir with
    | some dir => dir.join ((file.relativeTo? r.rootDir).getD file)
    | none => file
  let extension : Text :=
    if file.extension? == some "mts".toList then "mjs"
    else if file.extension? == some "cts".toList then "cjs"
    else if file.extension? == some "json".toList then "json"
    else "js"
  base.withExtension extension

end ProjectReference
end TestTransform

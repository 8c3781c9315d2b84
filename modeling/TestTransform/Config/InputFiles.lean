/-
The input files of a project: the listed ones, and those that its globs find.

A glob like `src` names a directory, so a file is also found if one of the directories
around it matches.
-/
import TestTransform.Config.TsConfig
import TestTransform.Files.Kind
import TestTransform.Config.Globs

namespace TestTransform
namespace InputFiles

/-- Whether the globs match a file or a directory around it. -/
def covers (globs : List Glob) (file : Path) : Bool := file.ancestors.any (Glob.anyMatch globs)

def isGlobChar (c : Char) : Bool := c == '*' || c == '?' || c == '[' || c == '{'

/-- The leading components of a glob in which there is no glob notation. -/
def baseOf (pattern : Text) : Path :=
  let plain := (Path.mk pattern).components.takeWhile fun c => !c.text.any isGlobChar
  Path.ofComponents plain

/-- Whether a file has one of the extensions that globs pick up. -/
def isInput (file : Path) : Bool := FileKind.ofPath file == .typeScript

/-- The globs in effect.  Without globs and without listed files, everything below the
directory is an input. -/
def patterns (c : TsConfig) : List Text :=
  match c.includes, c.files with
  | some ps, _ => ps
  | none, some _ => []
  | none, none => [(TsConfig.dirOf c.path).text ++ "/**/*"]

/-- The files that the globs find below one directory. -/
def found (view : FileView) (includes excludes : List Glob) (outDir : Option Path)
    (base : Path) : List Path :=
  ((view.list base).toOption.getD []).filter fun file =>
    isInput file && !(outDir.any fun dir => file.isBelow dir) &&
      covers includes file && !covers excludes file

/-- All input files in order.  Globs to exclude and the output directory apply only to
what globs find. -/
def ofConfig (view : FileView) (c : TsConfig) (outDir : Option Path) :
    Except ConfigError (List Path) := do
  let listed := Sorted.distinct Path.cmp ((c.files.getD []).filter view.hasFile)
  match patterns c with
  | [] => .ok listed
  | ps =>
    let includes ← Glob.readAll false ps
    let excludes ← Glob.readAll false (c.excludes.getD [])
    let bases := Sorted.distinct Path.cmp (ps.map baseOf)
    .ok ((bases.flatMap (found view includes excludes outDir)).foldl
      (fun names file => Sorted.insertNew Path.cmp file names) listed)

end InputFiles
end TestTransform

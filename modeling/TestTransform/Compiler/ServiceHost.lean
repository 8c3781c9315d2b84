/-
The host of a language service: what the type-checking compiler sees of a project.

Files have versions, and the project as a whole has one.  A compiler only compares
versions with those that it saw before, to decide what to work out again; so a version
must move on whenever what it stands for changes.
-/
import TestTransform.Compiler.FileTable
import TestTransform.Files.Basic
import TestTransform.Options.Compiler

namespace TestTransform

structure ServiceHost where
  files : FileTable := {}
  /-- The project's input files, part of the program before anything is compiled. -/
  rootFiles : List Path
  projectVersion : Nat := 1
  options : CompilerOptions
  cwd : Path
  deriving DecidableEq, Repr, Inhabited

namespace ServiceHost

/-! ## Changes -/

/-- Shows a text for a file; if that is news, the project is in a new state. -/
def updateFile (h : ServiceHost) (p : Path) (text : Text) : FileUpdate × ServiceHost :=
  let (update, files) := h.files.update p text
  let version := if update.isDirty then h.projectVersion + 1 else h.projectVersion
  (update, { h with files, projectVersion := version })

/-- Sets the options; if they are not equal to those before, the project is in a new
state. -/
def setOptions (h : ServiceHost) (o : CompilerOptions) : ServiceHost :=
  if h.options.same o then h else { h with options := o, projectVersion := h.projectVersion + 1 }

def isRoot (h : ServiceHost) (p : Path) : Bool := h.rootFiles.any p.same

/-- The text of a file.  A file not known yet is read and known from then on; that is a
new state of the project unless the file is one of its inputs. -/
def snapshot (h : ServiceHost) (view : FileView) (file : Path) : Option Text × ServiceHost :=
  let p := file.normalize
  match h.files.text? p with
  | some t => (some t, h)
  | none =>
    match view.read? p with
    | none => (none, h)
    | some t =>
      if h.isRoot p then (some t, { h with files := (h.files.update p t).2 })
      else (some t, (h.updateFile p t).2)

/-! ## Looking -/

/-- The names of all files of the program in order. -/
def scriptNames (h : ServiceHost) : List Path :=
  Sorted.sort Path.cmp (h.files.paths ++ h.rootFiles.filter fun p => !h.files.contains p)

/-- The version of a file; an input file that was not read yet has version 0. -/
def scriptVersion? (h : ServiceHost) (file : Path) : Option Nat :=
  let p := file.normalize
  match h.files.version? p with
  | some v => some v
  | none => if h.isRoot p then some 0 else none

def hasFile (h : ServiceHost) (view : FileView) (file : Path) : Bool :=
  let p := file.normalize
  h.files.contains p || view.hasFile p

/-- The text of a file, without making it known. -/
def read? (h : ServiceHost) (view : FileView) (file : Path) : Option Text :=
  let p := file.normalize
  match h.files.text? p with
  | some t => some t
  | none => view.read? p

end ServiceHost
end TestTransform

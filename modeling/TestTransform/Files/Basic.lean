/-
What reading a project needs to know about files.

A `FileView` is the files as they are at one moment.  Whether they lie in memory or on
a disk makes no difference to what is computed from them.
-/
import TestTransform.Path.Resolve

namespace TestTransform

namespace FileError

inductive Kind where
  | notFound
  | permissionDenied
  | isADirectory
  | notADirectory
  | alreadyExists
  /-- The path cannot be the path of a file. -/
  | invalidInput
  /-- A name in the path, or the path as a whole, is too long. -/
  | invalidFilename
  deriving DecidableEq, Repr, Inhabited

end FileError

/-- Why a file operation failed, with the text that says so. -/
structure FileError where
  kind : FileError.Kind
  message : Text
  deriving DecidableEq, Repr, Inhabited

namespace FileError

/-- What an operating system says about an error. -/
def systemText : Kind → Text
  | .notFound => "No such file or directory (os error 2)"
  | .permissionDenied => "Permission denied (os error 13)"
  | .alreadyExists => "File exists (os error 17)"
  | .notADirectory => "Not a directory (os error 20)"
  | .isADirectory => "Is a directory (os error 21)"
  | .invalidFilename => "File name too long (os error 36)"
  | .invalidInput => "file name contained an unexpected NUL byte"

/-- An error of an operating system. -/
def ofKind (kind : Kind) : FileError := ⟨kind, systemText kind⟩

end FileError

/-- The files at one moment.  `count` is not less than the number of files, so a walk that
comes by different files is never longer. -/
structure FileView where
  read : Path → Except FileError Text
  hasFile : Path → Bool
  /-- All files below a directory in order, without those in `node_modules`. -/
  list : Path → Except FileError (List Path)
  count : Nat

namespace FileView

/-- The text of a file that can be read. -/
def read? (view : FileView) (p : Path) : Option Text := (view.read p).toOption

end FileView
end TestTransform

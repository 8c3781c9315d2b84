/-
Files of which it is known what reading them gives.

This is the view of a caller that has looked beforehand at all the files it may need.
What was not looked at counts as missing.
-/
import TestTransform.Files.Basic

namespace TestTransform

structure KnownFiles where
  entries : List (Path × Except FileError Text) := []

namespace KnownFiles

def find? (k : KnownFiles) (p : Path) : Option (Except FileError Text) :=
  Assoc.find? Path.cmp p k.entries

def add (k : KnownFiles) (p : Path) (result : Except FileError Text) : KnownFiles :=
  ⟨Assoc.insert Path.cmp p result k.entries⟩

def read (k : KnownFiles) (p : Path) : Except FileError Text := (k.find? p).getD (.error (.ofKind .notFound))

/-- Directories are not known, so nothing can be listed. -/
def view (k : KnownFiles) : FileView where
  read := k.read
  hasFile p := (k.read p).toOption.isSome
  list _ := .ok []
  count := k.entries.length

end KnownFiles
end TestTransform

/-
The files a compiler has been shown: their texts, how often each changed, and the output
last compiled from each.
-/
import TestTransform.Path.Basic

namespace TestTransform

/-- JavaScript for one file, with the map that was inlined into it. -/
structure CompiledOutput where
  code : Text
  map : Option Text
  deriving DecidableEq, Repr, Inhabited

structure FileRecord where
  text : Text
  version : Nat
  /-- Output compiled from the text, with the number of the project's state it was
  compiled in. -/
  output : Option (Nat × CompiledOutput) := none
  deriving DecidableEq, Repr, Inhabited

/-- What an update did. -/
inductive FileUpdate where
  | added
  | changed
  | unchanged
  deriving DecidableEq, Repr, Inhabited

/-- New files and new texts are a new state of the project. -/
def FileUpdate.isDirty : FileUpdate → Bool
  | unchanged => false
  | _ => true

structure FileTable where
  records : List (Path × FileRecord) := []
  deriving DecidableEq, Repr, Inhabited

namespace FileTable

def get? (t : FileTable) (p : Path) : Option FileRecord := Assoc.find? Path.cmp p t.records

def contains (t : FileTable) (p : Path) : Bool := (t.get? p).isSome

def version? (t : FileTable) (p : Path) : Option Nat := (t.get? p).map (·.version)

def text? (t : FileTable) (p : Path) : Option Text := (t.get? p).map (·.text)

/-- The paths in order. -/
def paths (t : FileTable) : List Path := t.records.map (·.1)

def put (t : FileTable) (p : Path) (r : FileRecord) : FileTable :=
  ⟨Assoc.insert Path.cmp p r t.records⟩

/-- Shows a text for a file.  A new text gets the next version and has no output yet. -/
def update (t : FileTable) (p : Path) (text : Text) : FileUpdate × FileTable :=
  match t.get? p with
  | none => (.added, t.put p { text, version := 1 })
  | some r =>
    if r.text == text then (.unchanged, t)
    else (.changed, t.put p { text, version := r.version + 1 })

/-- Remembers the output for the current text of a file. -/
def storeOutput (t : FileTable) (p : Path) (projectVersion : Nat) (o : CompiledOutput) :
    FileTable :=
  match t.get? p with
  | none => t
  | some r => t.put p { r with output := some (projectVersion, o) }

/-- The output of a file, if it was compiled in the given state of the project. -/
def output? (t : FileTable) (p : Path) (projectVersion : Nat) : Option CompiledOutput :=
  ((t.get? p).bind (·.output)).bind fun (builtAt, o) =>
    if builtAt == projectVersion then some o else none

end FileTable
end TestTransform

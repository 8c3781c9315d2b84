/-
Files in memory.

Paths are normalized before they are used, so all spellings of a path name one file.
Time is a counter that moves on with each write and each touch; two writes never have
the same time.
-/
import TestTransform.Files.Basic

namespace TestTransform

/-- The milliseconds from the epoch to a time in nanoseconds; none for a time before the epoch. -/
def millisecondsOf (nanoseconds : Int) : Nat := nanoseconds.toNat / 1000000

structure StoredFile where
  content : Text
  /-- Seconds of the store's own clock. -/
  modified : Nat
  deriving DecidableEq, Repr, Inhabited

structure Store where
  files : List (Path × StoredFile) := []
  clock : Nat := 0
  deriving DecidableEq, Repr, Inhabited

namespace Store

def file? (s : Store) (p : Path) : Option StoredFile :=
  Assoc.find? Path.cmp p.normalize s.files

def notFound (p : Path) : FileError := ⟨.notFound, "no such file: " ++ p.text⟩

/-! ## Changing files -/

/-- Writes a file one second later. -/
def add (s : Store) (p : Path) (content : Text) : Store :=
  let now := s.clock + 1
  { files := Assoc.insert Path.cmp p.normalize ⟨content, now⟩ s.files, clock := now }

/-- Gives a file the next second as its time.  The clock moves on even without a file. -/
def touch (s : Store) (p : Path) : Store :=
  let now := s.clock + 1
  { files := Assoc.modify Path.cmp p.normalize (fun f => { f with modified := now }) s.files
    clock := now }

def remove (s : Store) (p : Path) : Except FileError Store :=
  match s.file? p with
  | some _ => .ok { s with files := Assoc.erase Path.cmp p.normalize s.files }
  | none => .error (notFound p)

/-! ## Looking at files -/

def read (s : Store) (p : Path) : Except FileError Text :=
  match s.file? p with
  | some f => .ok f.content
  | none => .error (notFound p)

def hasFile (s : Store) (p : Path) : Bool := (s.file? p).isSome

def modified (s : Store) (p : Path) : Except FileError Nat :=
  match s.file? p with
  | some f => .ok f.modified
  | none => .error (notFound p)

/-- A time of the store's clock in nanoseconds. -/
def nanoseconds (seconds : Nat) : Int := seconds * 1000000000

/-- The paths of all files in order. -/
def paths (s : Store) : List Path := s.files.map (·.1)

/-- Whether a file is found when the directory is walked without entering
`node_modules`. -/
def isListed (dir p : Path) : Bool :=
  match p.relativeTo? dir with
  | some relative => !relative.inNodeModules
  | none => false

def list (s : Store) (dir : Path) : List Path := s.paths.filter (isListed dir.normalize)

end Store

/-! ## Files with denied operations -/

/-- The paths for which an operation is denied, for each kind of operation. -/
structure Denials where
  read : List Path := []
  write : List Path := []
  remove : List Path := []
  modified : List Path := []
  list : List Path := []
  deriving DecidableEq, Repr, Inhabited

/-- A store together with the operations that are denied on it. -/
structure Disk where
  store : Store := {}
  denials : Denials := {}
  deriving DecidableEq, Repr, Inhabited

namespace Disk

/-- Refuses an operation on one of the denied paths. -/
def guarded {α : Type} (denied : List Path) (p : Path) (result : Except FileError α) :
    Except FileError α :=
  if denied.any fun q => q.same p then .error ⟨.permissionDenied, "denied: " ++ p.text⟩
  else result

def read (d : Disk) (p : Path) : Except FileError Text :=
  guarded d.denials.read p (d.store.read p)

def read? (d : Disk) (p : Path) : Option Text := (d.read p).toOption

def write (d : Disk) (p : Path) (content : Text) : Except FileError Disk :=
  guarded d.denials.write p (.ok { d with store := d.store.add p content })

def remove (d : Disk) (p : Path) : Except FileError Disk :=
  guarded d.denials.remove p ((d.store.remove p).map fun s => { d with store := s })

def hasFile (d : Disk) (p : Path) : Bool := d.store.hasFile p

def modified (d : Disk) (p : Path) : Except FileError Nat :=
  guarded d.denials.modified p (d.store.modified p)

def list (d : Disk) (dir : Path) : Except FileError (List Path) :=
  guarded d.denials.list dir (.ok (d.store.list dir))

def view (d : Disk) : FileView where
  read := d.read
  hasFile := d.hasFile
  list := d.list
  count := d.store.files.length

end Disk
end TestTransform

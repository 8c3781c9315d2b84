/-
Files in directories, as an operating system keeps them.

A path is followed name by name: every name on the way must be that of a directory that
exists, also in front of `..`, and a path that ends in a slash means a directory.  Paths
are absolute.
-/
import TestTransform.Files.Basic
import TestTransform.Text.Utf8

namespace TestTransform

/-- What may stand at a place. -/
inductive Node where
  | file (text : Text)
  | directory
  deriving DecidableEq, Repr, Inhabited

/-- A place is named by the names on the way to it from the root. -/
abbrev Place := List Text

namespace Place

/-- Places are ordered name by name, so a directory comes right before what is in it. -/
def cmp : Place → Place → Ordering
  | [], [] => .eq
  | [], _ :: _ => .lt
  | _ :: _, [] => .gt
  | a :: p, b :: q =>
    match Text.cmp a b with
    | .eq => cmp p q
    | o => o

/-- The names that lead from one place to another below it. -/
def below? : (dir : Place) → Place → Option (List Text)
  | [], p => some p
  | _ :: _, [] => none
  | a :: dir, b :: p => if a == b then below? dir p else none

end Place

/-- The places at which something stands, in order.  The root is a directory that is always
there and is not listed. -/
structure Tree where
  nodes : List (Place × Node) := []
  deriving DecidableEq, Repr, Inhabited

namespace Tree

def node? (t : Tree) (p : Place) : Option Node :=
  if p.isEmpty then some .directory else Assoc.find? Place.cmp p t.nodes

def put (t : Tree) (p : Place) (n : Node) : Tree := ⟨Assoc.insert Place.cmp p n t.nodes⟩

/-- The node at a place that must be a directory. -/
def enter (t : Tree) (here : Place) : Except FileError.Kind Unit :=
  match t.node? here with
  | none => .error .notFound
  | some (.file _) => .error .notADirectory
  | some .directory => .ok ()

/-! ## Following paths -/

/-- The number of bytes that a name may have. -/
def maxName : Nat := 255

/-- The number of bytes that a path may have. -/
def maxPath : Nat := 4095

/-- A name can only be looked up if it is short enough. -/
def checkName (name : Text) : Except FileError.Kind Unit :=
  if Text.byteLength name ≤ maxName then .ok () else .error .invalidFilename

/-- Follows names from a place.  What stands at the last one is not looked at. -/
def follow (t : Tree) : Place → List Text → Except FileError.Kind Place
  | here, [] => .ok here
  | here, name :: names => do
    t.enter here
    if name == [] || name == ".".toList then t.follow here names
    else if name == "..".toList then t.follow here.dropLast names
    else
      checkName name
      t.follow (here ++ [name]) names

def names (p : Path) : List Text := Text.splitOn '/' p.text

/-- The system takes no path with a null character in it, none that is empty and none that
is too long. -/
def checkPath (p : Path) : Except FileError.Kind Unit :=
  if p.text.any fun c => c.toNat == 0 then .error .invalidInput
  else if p.text.isEmpty then .error .notFound
  else if Text.byteLength p.text > maxPath then .error .invalidFilename
  else .ok ()

/-- The place of a path and what stands there. -/
def stat (t : Tree) (p : Path) : Except FileError.Kind (Place × Node) := do
  checkPath p
  let place ← t.follow [] (names p)
  match t.node? place with
  | some n => .ok (place, n)
  | none => .error .notFound

/-- Where something is to be made or removed: a name in a directory. -/
structure Target where
  dir : Place
  name : Text
  /-- Whether a slash follows the name. -/
  slash : Bool
  deriving DecidableEq, Repr, Inhabited

namespace Target

def place (target : Target) : Place := target.dir ++ [target.name]

/-- Whether the last name is one that a file could have. -/
def isProper (target : Target) : Bool :=
  target.name ≠ [] && target.name ≠ ".".toList && target.name ≠ "..".toList

end Target

/-- The target of a path, whose directory must exist. -/
def target (t : Tree) (p : Path) : Except FileError.Kind Target := do
  checkPath p
  let backwards := (names p).reverse
  let trimmed := backwards.dropWhile List.isEmpty
  let dir ← t.follow [] trimmed.tail.reverse
  t.enter dir
  .ok { dir, name := trimmed.headD [], slash := trimmed.length < backwards.length }

/-! ## Looking -/

def read (t : Tree) (p : Path) : Except FileError.Kind Text :=
  match t.stat p with
  | .ok (_, .file text) => .ok text
  | .ok (_, .directory) => .error .isADirectory
  | .error e => .error e

def hasFile (t : Tree) (p : Path) : Bool := (t.read p).toOption.isSome

def isDirectory (t : Tree) (p : Path) : Bool :=
  match t.stat p with
  | .ok (_, .directory) => true
  | _ => false

/-- The names below a directory that lead to a file, unless they pass `node_modules`. -/
def listed? (dir : Place) (entry : Place × Node) : Option (List Text) :=
  match entry.2, Place.below? dir entry.1 with
  | .file _, some names => if names.contains "node_modules".toList then none else some names
  | _, _ => none

/-- The files below a directory in order, with their paths as they grow out of its own;
of a file the file itself. -/
def list (t : Tree) (p : Path) : Except FileError.Kind (List Path) :=
  match t.stat p with
  | .ok (_, .file _) => .ok [p]
  | .ok (place, .directory) =>
    .ok ((t.nodes.filterMap (listed? place)).map fun names =>
      names.foldl (fun dir name => dir.join ⟨name⟩) p)
  | .error e => .error e

/-! ## Changes

A change that fails may have made directories before it failed. -/

/-- Makes one directory. -/
def makeDirectory (t : Tree) (p : Path) : Except FileError.Kind Tree := do
  let target ← t.target p
  checkName target.name
  if target.isProper && (t.node? target.place).isNone then .ok (t.put target.place .directory)
  else .error .alreadyExists

/-- Makes the first directory of a chain that goes outwards, and as many of the others as
are needed for that. -/
def makeChain (t : Tree) : List Path → Except FileError.Kind Unit × Tree
  | [] => (.error .notFound, t)
  | p :: around =>
    match t.makeDirectory p with
    | .ok t => (.ok (), t)
    | .error .notFound =>
      match t.makeChain around with
      | (.error e, t) => (.error e, t)
      | (.ok (), t) =>
        match t.makeDirectory p with
        | .ok t => (.ok (), t)
        | .error e => (if t.isDirectory p then .ok () else .error e, t)
    | .error e => (if t.isDirectory p then .ok () else .error e, t)

/-- Makes a directory and those around it that are missing. -/
def makeDirectories (t : Tree) (p : Path) : Except FileError.Kind Unit × Tree :=
  t.makeChain p.ancestors

/-- Writes a file whose directory exists. -/
def writeFile (t : Tree) (p : Path) (text : Text) : Except FileError.Kind Tree := do
  let target ← t.target p
  if !target.isProper || target.slash then .error .isADirectory
  else
    checkName target.name
    if t.node? target.place == some .directory then .error .isADirectory
    else .ok (t.put target.place (.file text))

/-- Writes a file and makes the directories around it. -/
def write (t : Tree) (p : Path) (text : Text) : Except FileError.Kind Unit × Tree :=
  let (made, t) := match p.parent? with
    | some dir => t.makeDirectories dir
    | none => (.ok (), t)
  match made with
  | .error e => (.error e, t)
  | .ok () =>
    match t.writeFile p text with
    | .ok t => (.ok (), t)
    | .error e => (.error e, t)

/-- Removes a file. -/
def remove (t : Tree) (p : Path) : Except FileError.Kind Tree := do
  let target ← t.target p
  if !target.isProper then .error .isADirectory
  else
    checkName target.name
    match t.node? target.place with
    | none => .error .notFound
    | some .directory => .error .isADirectory
    | some (.file _) =>
      if target.slash then .error .notADirectory
      else .ok ⟨Assoc.erase Place.cmp target.place t.nodes⟩

/-! ## View -/

def view (t : Tree) : FileView where
  read p := (t.read p).mapError FileError.ofKind
  hasFile := t.hasFile
  list p := (t.list p).mapError FileError.ofKind
  count := t.nodes.length

end Tree
end TestTransform

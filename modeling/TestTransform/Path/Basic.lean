/-
File paths: a text and the components it spells.

Two paths are *the same* when their components are, so repeated and trailing slashes
and inner `.` do not matter, while `..` and a leading `.` do.  The text is kept as
written, because output shows it; equality of `Path` is equality of texts, and
`Path.same` is equality of components.
-/
import TestTransform.Text.Basic
import TestTransform.Order.Assoc

namespace TestTransform

/-- One step of a path. -/
inductive Component where
  | root
  | current
  | parent
  | normal (name : Text)
  deriving DecidableEq, Repr, Inhabited

namespace Component

/-- Components are ordered by kind, names among themselves by code point. -/
def rank : Component → Nat
  | root => 0
  | current => 1
  | parent => 2
  | normal _ => 3

def cmp : Component → Component → Ordering
  | normal a, normal b => Text.cmp a b
  | a, b => compare a.rank b.rank

def text : Component → Text
  | root => "/"
  | current => "."
  | parent => ".."
  | normal name => name

end Component

structure Path where
  text : Text
  deriving DecidableEq, Repr, Inhabited

namespace Path

instance : Coe Text Path := ⟨Path.mk⟩

/-- A path literal. -/
def ofString (s : String) : Path := ⟨s.toList⟩

/-! ## Components and where they stand -/

/-- A component with the half-open range of characters that spells it. -/
structure Span where
  component : Component
  start : Nat
  stop : Nat
  deriving DecidableEq, Repr, Inhabited

/-- The spans of the pieces between slashes, the first of which begins at `offset`.
Empty pieces and `.` spell nothing. -/
def spansFrom : (offset : Nat) → List Text → List Span
  | _, [] => []
  | offset, piece :: rest =>
    let stop := offset + piece.length
    if piece == [] || piece == ['.'] then spansFrom (stop + 1) rest
    else if piece == ['.', '.'] then ⟨.parent, offset, stop⟩ :: spansFrom (stop + 1) rest
    else ⟨.normal piece, offset, stop⟩ :: spansFrom (stop + 1) rest

/-- The spans of a text.  A `.` counts only at the very beginning. -/
def spansOf (t : Text) : List Span :=
  match t with
  | '/' :: _ => ⟨.root, 0, 1⟩ :: spansFrom 0 (Text.splitOn '/' t)
  | _ =>
    match Text.splitOn '/' t with
    | ['.'] :: rest => ⟨.current, 0, 1⟩ :: spansFrom 2 rest
    | pieces => spansFrom 0 pieces

def spans (p : Path) : List Span := spansOf p.text

def components (p : Path) : List Component := p.spans.map (·.component)

/-- Compares two lists of components; a proper beginning comes first. -/
def cmpComponents : List Component → List Component → Ordering
  | [], [] => .eq
  | [], _ :: _ => .lt
  | _ :: _, [] => .gt
  | a :: s, b :: t =>
    match a.cmp b with
    | .eq => cmpComponents s t
    | o => o

/-- The order of paths goes by components. -/
def cmp (p q : Path) : Ordering := cmpComponents p.components q.components

/-- Whether two texts spell the same path. -/
def same (p q : Path) : Bool := p.components == q.components

def isAbsolute (p : Path) : Bool := p.text.head? == some '/'

/-! ## Parts of a path -/

/-- The path without its last component, cut right behind the one before it. -/
def parent? (p : Path) : Option Path :=
  match p.spans.reverse with
  | [] => none
  | [s] => if s.component == .root then none else some ⟨[]⟩
  | _ :: s :: _ => some ⟨p.text.take s.stop⟩

/-- The path itself and what `parent?` yields again and again, `n` times at most. -/
def ancestorsUpTo : (n : Nat) → Path → List Path
  | 0, p => [p]
  | n + 1, p =>
    match p.parent? with
    | none => [p]
    | some q => p :: ancestorsUpTo n q

/-- The path itself, its parent, the parent of that and so on. -/
def ancestors (p : Path) : List Path := ancestorsUpTo p.spans.length p

/-- The last component, if it is a name. -/
def name? (p : Path) : Option Text :=
  match p.spans.getLast? with
  | some ⟨.normal name, _, _⟩ => some name
  | _ => none

/-- A name cut at its last dot, unless nothing stands in front of that dot. -/
def splitName (name : Text) : Text × Option Text :=
  match Text.splitAtLast? ['.'] name with
  | some (stem@(_ :: _), _ :: ext) => (stem, some ext)
  | _ => (name, none)

def extension? (p : Path) : Option Text := p.name?.bind fun name => (splitName name).2

/-- Whether the path begins with all components of `dir`. -/
def isBelow (p dir : Path) : Bool := dir.components.isPrefixOf p.components

/-- What follows `dir` in a path that begins with it: from its first further component
to the end of its last. -/
def relativeTo? (p dir : Path) : Option Path :=
  if p.isBelow dir then
    let rest := p.spans.drop dir.spans.length
    match rest.head?, rest.getLast? with
    | some first, some last => some ⟨(p.text.take last.stop).drop first.start⟩
    | _, _ => some ⟨[]⟩
  else none

/-! ## Building paths -/

/-- Hangs `q` below `p`; an absolute `q` stands for itself. -/
def join (p q : Path) : Path :=
  if q.isAbsolute then q
  else if p.text == [] || p.text.getLast? == some '/' then ⟨p.text ++ q.text⟩
  else ⟨p.text ++ '/' :: q.text⟩

/-- The path with a text put behind its own. -/
def append (p : Path) (ending : Text) : Path := ⟨p.text ++ ending⟩

/-- The path cut behind its name's stem, with a new extension; a path without a name is
left as it is.  The old extension is taken away first, and where only `..` is left at the
end of the path, that is no name and gets no extension. -/
def withExtension (p : Path) (ext : Text) : Path :=
  match p.spans.getLast? with
  | some ⟨.normal name, start, stop⟩ =>
    let (stem, old) := splitName name
    if stem == ['.'] && old.isSome && stop == p.text.length then ⟨p.text.take (start + 2)⟩
    else
      let kept := p.text.take (start + stem.length)
      if ext == [] then ⟨kept⟩ else ⟨kept ++ '.' :: ext⟩
  | _ => p

/-- The text of a list of components with one slash between two of them. -/
def ofComponents : List Component → Path
  | .root :: rest => ⟨'/' :: Text.join "/" (rest.map Component.text)⟩
  | cs => ⟨Text.join "/" (cs.map Component.text)⟩

/-- Whether a component of the path is called `node_modules`. -/
def inNodeModules (p : Path) : Bool := p.components.contains (.normal "node_modules")

end Path
end TestTransform

/-
A dependency graph kept in a file.

Every change is written at once, and every write puts this cache's view in place of the
file.  Caches on one file are not coordinated: the last one to write wins, and what is
lost that way has to be worked out again.
-/
import TestTransform.Graph.Basic
import TestTransform.Files.Store
import TestTransform.Digest.Parts

namespace TestTransform

inductive GraphCacheError where
  | io (path : Path) (error : FileError)
  /-- The text is not the text of a graph. -/
  | malformed
  | noDirectory
  deriving DecidableEq, Repr

namespace GraphCacheError

/-- What went wrong, up to the place where the reader of a refused text has its say. -/
def head : GraphCacheError → Text
  | io path e => "IO error on " ++ path.text ++ ": " ++ e.message
  | malformed => "Serialization error: "
  | noDirectory => "No cache directory configured"

/-- What the reader of a refused text has to say about it. -/
def detail? : GraphCacheError → Option Text
  | malformed => some "the text is not JSON of the expected form"
  | _ => none

def message (e : GraphCacheError) : Text := e.head ++ e.detail?.getD []

end GraphCacheError

structure GraphCache where
  /-- The graph's file; without one the graph lives in memory only. -/
  file : Option Path
  graph : DependencyGraph := {}
  deriving DecidableEq, Repr, Inhabited

namespace GraphCache

/-- What the name of the graph's file is derived from: a fixed text and the number of the
layout. -/
def nameSeed : Text := "tsjest-resolved-modules1"

def fileName : Text := Digest.ofText nameSeed

/-- An empty cache on a directory. -/
def new (dir : Option Path) : GraphCache := { file := dir.map fun d => d.join ⟨fileName⟩ }

/-- Takes over what the file holds.  A file that cannot be read as a graph leaves the
graph empty; without a file the graph stays as it is. -/
def load (c : GraphCache) (view : FileView) : GraphCache :=
  match c.file with
  | none => c
  | some p =>
    if view.hasFile p then
      { c with graph := (((view.read p).toOption).bind DependencyGraph.ofText?).getD {} }
    else c

/-- A cache on a directory with what its file holds. -/
def openAt (view : FileView) (dir : Option Path) : GraphCache := (new dir).load view

/-! ## Looking things up -/

def lookup? (c : GraphCache) (p : Path) : Option (List Path) := (c.graph.get? p).map (·.modules)

/-- The modules of a file, if they were worked out from this content. -/
def lookupValid? (c : GraphCache) (p : Path) (content : Text) : Option (List Path) :=
  ((c.graph.get? p).filter fun e => e.content == content).map (·.modules)

def dependentsOf (c : GraphCache) (module : Path) : List Path := c.graph.dependentsOf module

/-! ## Changes -/

/-- Writes the graph to its file. -/
def save (c : GraphCache) (d : Disk) : Except GraphCacheError Disk :=
  match c.file with
  | none => .error .noDirectory
  | some p => (d.write p c.graph.toText).mapError (GraphCacheError.io p)

/-- Records the modules of a file and writes the graph if that changed it.  A failed
write is let pass. -/
def record (c : GraphCache) (d : Disk) (p : Path) (content : Text) (modules : List Path) :
    Bool × GraphCache × Disk :=
  let (changed, graph) := c.graph.insert p ⟨content, modules⟩
  let c := { c with graph }
  if changed then
    match c.save d with
    | .ok d => (true, c, d)
    | .error _ => (true, c, d)
  else (false, c, d)

/-- Drops all entries and removes the file.  The entries are gone even if the file
cannot be removed. -/
def clear (c : GraphCache) (d : Disk) : GraphCache × Except GraphCacheError Disk :=
  let c := { c with graph := {} }
  match c.file with
  | none => (c, .ok d)
  | some p =>
    if d.hasFile p then (c, (d.remove p).mapError (GraphCacheError.io p)) else (c, .ok d)

end GraphCache
end TestTransform

/-
The dependency graph: for each file, the modules it imports, directly or through others,
together with the content that this was worked out from.
-/
import TestTransform.Json.Decode
import TestTransform.Json.Form
import TestTransform.Json.Printer
import TestTransform.Path.Basic

namespace TestTransform

structure GraphEntry where
  content : Text
  modules : List Path
  deriving DecidableEq, Repr, Inhabited

namespace GraphEntry

/-- Whether two lists hold the same paths in the same order. -/
def samePaths : List Path → List Path → Bool
  | [], [] => true
  | p :: ps, q :: qs => p.same q && samePaths ps qs
  | _, _ => false

/-- Entries are equal when their contents are and their modules are the same paths. -/
def same (a b : GraphEntry) : Bool := a.content == b.content && samePaths a.modules b.modules

def fieldNames : List (List Text) := [["fileContent"], ["resolvedModuleNames"]]

def ofJson? (j : Json) : Option GraphEntry :=
  match Json.record? fieldNames j with
  | some [content, modules] => do
    let content ← Json.required? Json.asText? content
    let modules ← Json.required? Json.asTexts? modules
    some ⟨content, modules.map Path.mk⟩
  | _ => none

def toJson (e : GraphEntry) : Json :=
  .obj [("fileContent", .str e.content),
    ("resolvedModuleNames", Json.ofTexts (e.modules.map (·.text)))]

end GraphEntry

/-- The entries in the order of their paths. -/
structure DependencyGraph where
  entries : List (Path × GraphEntry) := []
  deriving DecidableEq, Repr, Inhabited

namespace DependencyGraph

def get? (g : DependencyGraph) (p : Path) : Option GraphEntry :=
  Assoc.find? Path.cmp p g.entries

/-- Puts an entry under a path and says whether that changes anything. -/
def insert (g : DependencyGraph) (p : Path) (e : GraphEntry) : Bool × DependencyGraph :=
  if (g.get? p).any fun old => old.same e then (false, g)
  else (true, ⟨Assoc.insert Path.cmp p e g.entries⟩)

/-- The files whose recorded modules include a module. -/
def dependentsOf (g : DependencyGraph) (module : Path) : List Path :=
  (g.entries.filter fun e => e.2.modules.any module.same).map (·.1)

def paths (g : DependencyGraph) : List Path := g.entries.map (·.1)

def toJson (g : DependencyGraph) : Json := .obj (g.entries.map fun e => (e.1.text, e.2.toJson))

def toText (g : DependencyGraph) : Text := g.toJson.compact

/-- An entry as written, under its path. -/
def entry? (field : List Json.Letter × Json.Form) : Option (Path × GraphEntry) := do
  let name ← Json.Form.text? field.1
  let value ← Json.knownFields? (Json.Form.maxDepth - 1) GraphEntry.fieldNames.flatten field.2
  let e ← GraphEntry.ofJson? value
  some (⟨name⟩, e)

/-- Reads a graph from its text; of entries under one path the last one counts. -/
def ofText? (t : Text) : Option DependencyGraph :=
  match Json.Form.ofText? t with
  | some (.obj fields) =>
    (fields.mapM entry?).map fun entries => ⟨Assoc.insertAll Path.cmp [] entries⟩
  | _ => none

end DependencyGraph
end TestTransform

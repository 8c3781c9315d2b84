/-
A graph is read back from its text.

The entries of a graph stand in the order of their paths, and are written and read in that
order, so none of them takes another's place.
-/
import TestTransform.Graph.Basic
import TestTransform.Proofs.Json.Reading
import TestTransform.Proofs.Order.Rising
import TestTransform.Proofs.Path.Order

namespace TestTransform
namespace DependencyGraph

open Json

/-! ## Order -/

/-- Whether the entries stand in the order of their paths. -/
def Rising (g : DependencyGraph) : Prop := Assoc.Rising Path.cmp g.entries

theorem rising_empty : Rising {} := Assoc.rising_nil

theorem Rising.insert {g : DependencyGraph} (h : g.Rising) (p : Path) (e : GraphEntry) :
    (g.insert p e).2.Rising := by
  rw [DependencyGraph.insert]
  split
  · exact h
  · exact Assoc.Rising.insert h p e

/-! ## Reading entries -/

/-- The form in which an entry is written. -/
def formOf (e : Path × GraphEntry) : List Letter × Form :=
  (e.1.text.map letterOf, .obj
    [ (("fileContent" : Text).map letterOf, .str (e.2.content.map letterOf)),
      (("resolvedModuleNames" : Text).map letterOf,
        .arr (e.2.modules.map fun m => .str (m.text.map letterOf))) ])

theorem readsField_formOf (e : Path × GraphEntry) :
    ReadsField (e.1.text, e.2.toJson) (formOf e) := by
  have hmodules : List.Forall₂ Reads (e.2.modules.map fun m => Json.str m.text)
      (e.2.modules.map fun m => Form.str (m.text.map letterOf)) := by
    rw [List.forall₂_map_left_iff, List.forall₂_map_right_iff, List.forall₂_same]
    exact fun m _ => reads_str m.text
  have hmodules' : Reads (ofTexts (e.2.modules.map (·.text)))
      (.arr (e.2.modules.map fun m => Form.str (m.text.map letterOf))) := by
    rw [ofTexts, List.map_map]
    exact reads_arr hmodules
  exact ⟨rfl, reads_obj (.cons ⟨rfl, reads_str _⟩ (.cons ⟨rfl, hmodules'⟩ .nil))⟩

theorem itemValues?_str (depth : Nat) (ts : List Text) :
    Form.itemValues? depth (ts.map fun t => Form.str (t.map letterOf)) = some (ts.map .str) := by
  induction ts with
  | nil => rfl
  | cons t ts ih =>
    simp only [List.map_cons, Form.itemValues?, Form.value?, text?_map_letterOf, ih,
      Option.map_some]

theorem mapM_asText? (ts : List Text) : (ts.map Json.str).mapM asText? = some ts := by
  induction ts with
  | nil => rfl
  | cons t ts ih =>
    rw [List.map_cons, List.mapM_cons, ih]
    rfl

theorem ofJson?_toJson (e : GraphEntry) : GraphEntry.ofJson? e.toJson = some e := by
  have hrecord : Json.record? GraphEntry.fieldNames e.toJson =
      some [some (.str e.content), some (ofTexts (e.modules.map (·.text)))] := rfl
  have htexts : asTexts? (ofTexts (e.modules.map (·.text))) = some (e.modules.map (·.text)) :=
    mapM_asText? _
  have hpaths : (e.modules.map (·.text)).map Path.mk = e.modules := by
    rw [List.map_map]
    exact List.map_id _
  rw [GraphEntry.ofJson?, hrecord]
  simp only [Json.required?, asText?, htexts, Option.bind_eq_bind, Option.bind_some, hpaths]

/-- The fields of an entry's form, all of which are known. -/
theorem knownFields?_formOf (e : Path × GraphEntry) :
    Json.knownFields? (Form.maxDepth - 1) GraphEntry.fieldNames.flatten (formOf e).2 =
      some e.2.toJson := by
  have hmodules : Form.value? 125 (.arr (e.2.modules.map fun m => Form.str (m.text.map letterOf))) =
      some (ofTexts (e.2.modules.map (·.text))) := by
    have h := itemValues?_str 124 (e.2.modules.map (·.text))
    rw [List.map_map] at h
    rw [Form.value?]
    exact congrArg (Option.map Json.arr) h
  have hcontent : Form.value? 125 (.str (e.2.content.map letterOf)) = some (.str e.2.content) := by
    rw [Form.value?, text?_map_letterOf]
    rfl
  have hknown : ∀ k ∈ GraphEntry.fieldNames.flatten,
      GraphEntry.fieldNames.flatten.contains k = true := by decide
  rw [show Form.maxDepth - 1 = 125 + 1 from rfl, formOf, Json.knownFields?]
  simp only [Json.knownFields?.go, text?_map_letterOf, hknown "fileContent" (by decide),
    hknown "resolvedModuleNames" (by decide), if_true, hcontent, hmodules]
  rfl

theorem entry?_formOf (e : Path × GraphEntry) : entry? (formOf e) = some e := by
  have hname : Form.text? (formOf e).1 = some e.1.text := text?_map_letterOf e.1.text
  rw [ entry?, hname, knownFields?_formOf]
  simp only [Option.bind_eq_bind, Option.bind_some, ofJson?_toJson]

/-! ## Reading graphs -/

/-- What a graph was written as is read as that graph. -/
theorem ofText?_toText {g : DependencyGraph} (h : g.Rising) : ofText? g.toText = some g := by
  have hfields : List.Forall₂ ReadsField (g.entries.map fun e => (e.1.text, e.2.toJson))
      (g.entries.map formOf) := by
    rw [List.forall₂_map_left_iff, List.forall₂_map_right_iff, List.forall₂_same]
    exact fun e _ => readsField_formOf e
  have hform : Form.ofText? g.toText = some (.obj (g.entries.map formOf)) :=
    (reads_obj hfields).ofText?
  have hentries : ∀ entries : List (Path × GraphEntry),
      (entries.map formOf).mapM entry? = some entries := by
    intro entries
    induction entries with
    | nil => rfl
    | cons e entries ih =>
      rw [List.map_cons, List.mapM_cons, ih, entry?_formOf]
      rfl
  rw [ofText?, hform]
  simp only [hentries, Option.map_some]
  rw [Assoc.insertAll_of_rising (l := []) h]
  rfl

end DependencyGraph
end TestTransform

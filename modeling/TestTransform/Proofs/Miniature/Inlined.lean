/-
What the miniature compiler emits, with its map inlined.

The body that is emitted ends its last line, and the comment behind it names a file.  A name has
no slash, so no further marker stands in it, and the comment that is exchanged for the map is the
one that was emitted, whatever markers the source itself has.
-/
import TestTransform.Miniature.Emit
import TestTransform.Proofs.Compiler.Output
import TestTransform.Proofs.Miniature.Emit
import TestTransform.Proofs.Path.Extension

namespace TestTransform
namespace Miniature

open CompiledOutput (marker comment retarget)

/-! ## The body -/

theorem isEnded_line (t : Text) : (t ++ ['\n']).IsEnded := Text.isEnded_of_last rfl t

theorem isEnded_exportLine (name : Text) : (exportLine name).IsEnded :=
  Text.isEnded_of_last (by decide) _

theorem isEnded_emitBody (source : Text) (esm : Bool) : (emitBody source esm).IsEnded := by
  rw [emitBody]
  refine Text.isEnded_append (Text.isEnded_append ?_ (Text.isEnded_flatMap isEnded_line _))
    (Text.isEnded_flatMap isEnded_exportLine _)
  split
  · exact .inl rfl
  · refine Text.isEnded_append (.inr rfl) ?_
    split
    · exact .inr rfl
    · exact .inl rfl

/-! ## The comment -/

/-- The name of the JavaScript file is one, and has only characters of its file's name and of its
own extension. -/
theorem not_mem_outputName {file : Path} {name : Text} {c : Char} (hname : file.name? = some name)
    (hc : c ∉ name) (hext : c ∉ (".mjscjs" : Text)) : c ∉ (outputName file).name?.getD [] := by
  obtain ⟨ext, hmem, heq⟩ := outputName_eq file
  have hdot : c ≠ '.' := fun h => hext (by simp [h])
  have hslash : ∀ ext ∈ (["mjs".toList, "cjs".toList, "js".toList] : List Text),
      '/' ∉ ext ∧ ext ≠ [] ∧ ext ⊆ ".mjscjs".toList := by decide
  obtain ⟨hslash, hne, hsub⟩ := hslash ext hmem
  rw [heq]
  cases hnew : (file.withExtension ext).name? with
  | none => exact List.not_mem_nil
  | some new =>
    exact Path.not_mem_name_withExtension hname hc hdot (fun h => hext (hsub h)) hne hslash new
      hnew

/-- The comment that was emitted is taken away again. -/
theorem body_emit {file : Path} {name : Text} (hname : file.name? = some name)
    (hline : '\n' ∉ name) (before : Text) :
    CompiledOutput.body (before ++ "//# sourceMappingURL=" ++ (outputName file).name?.getD [] ++
      ".map") = before := by
  have hmarker : before ++ "//# sourceMappingURL=" ++ (outputName file).name?.getD [] ++ ".map" =
      before ++ (marker ++ ((outputName file).name?.getD [] ++ ".map")) := by
    simp only [List.append_assoc]
    rfl
  rw [hmarker]
  refine CompiledOutput.body_append (.inl ?_) ?_ before
  · rw [List.mem_append, not_or]
    exact ⟨not_mem_outputName hname (Path.slash_not_mem_name hname) (by decide), by decide⟩
  · rw [List.mem_append, not_or]
    exact ⟨not_mem_outputName hname hline (by decide), by decide⟩

/-! ## The map -/

/-- The only number of a map is its version. -/
theorem eq_of_mem_numbers {source : Text} {file : Path} {inlineSources : Bool} {n : Json.Number}
    (h : n ∈ Json.numbers (sourceMap source file inlineSources)) : n = .int 3 := by
  have hraw := Json.numbers_canon _ n h
  cases inlineSources <;> exact List.mem_singleton.mp hraw

theorem floatsReread_sourceMap (source : Text) (file : Path) (inlineSources : Bool) :
    (sourceMap source file inlineSources).FloatsReread := by
  intro x hx
  cases eq_of_mem_numbers hx

/-- A map that was emitted is read back. -/
theorem ofText?_sourceMap (source : Text) (file : Path) (inlineSources : Bool) :
    Json.ofText? (sourceMap source file inlineSources).compact =
      some (sourceMap source file inlineSources) := by
  refine Json.ofText?_compact ⟨Json.isCanonical_canon _, fun n hn => ?_⟩
    (floatsReread_sourceMap source file inlineSources) ((Json.nesting_canon _).trans ?_)
  · rw [eq_of_mem_numbers hn]
    decide
  · cases inlineSources <;> exact (by decide : 2 ≤ Json.Form.maxDepth)

/-- What a map is an object of, with the source in it. -/
theorem exists_sourceMap (source : Text) (file : Path) :
    ∃ fields, sourceMap source file true = .obj fields ∧
      Json.field? "sourcesContent" fields = some (.arr [.str source]) := by
  exact ⟨_, rfl, rfl⟩

/-! ## Both together -/

/-- The body that was emitted stays, and the comment behind it carries the map, which is that
for the file with the file's name in it. -/
theorem finalize_emit {file : Path} {name : Text} (hname : file.name? = some name)
    (hline : '\n' ∉ name) {options : CompilerOptions} (hmap : options.sourceMap = some true)
    (hsources : options.inlineSources = some true) (source : Text) :
    ∃ fields map, sourceMap source file true = .obj fields ∧
      Json.ofText? map = some (.obj (retarget file fields)) ∧
      CompiledOutput.finalize (emit source file options).1 (emit source file options).2 file =
        ⟨emitBody source options.effectiveModule.isEsModule ++ comment map, some map⟩ := by
  obtain ⟨fields, hfields, -⟩ := exists_sourceMap source file
  have hread := ofText?_sourceMap source file true
  have hfloats := floatsReread_sourceMap source file true
  rw [hfields] at hread hfloats
  refine ⟨fields, _, hfields, CompiledOutput.ofText?_rewriteMap hread hfloats file, ?_⟩
  have hended := CompiledOutput.closed_of_isEnded
    (isEnded_emitBody source options.effectiveModule.isEsModule)
  simp only [emit, hmap, hsources, Option.getD_some, if_true, CompiledOutput.finalize,
    body_emit hname hline, CompiledOutput.inline_eq, hended, hfields]

end Miniature
end TestTransform

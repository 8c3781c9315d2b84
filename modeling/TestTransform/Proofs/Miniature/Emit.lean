/-
What the miniature compiler emits, and how the type-checking compiler picks its output out
of it.

The name of the JavaScript file never looks like that of a map or of declarations, so the
output picked is the code and the map that were emitted.
-/
import TestTransform.Compiler.Language
import TestTransform.Proofs.Path.Names

namespace TestTransform

/-! ## Options that bear on what is emitted -/

namespace CompilerOptions

theorem agree_of_same {o p : CompilerOptions} (h : o.same p = true) {s : Slot} (hs : s ∈ slots) :
    s.agree o p = true := by
  rw [same, Bool.and_eq_true] at h
  exact List.all_eq_true.mp h.1 s hs

theorem module_eq_of_same {o p : CompilerOptions} (h : o.same p = true) : o.module = p.module :=
  beq_iff_eq.mp (agree_of_same h (List.mem_cons_of_mem _ List.mem_cons_self))

theorem flag_eq_of_same {o p : CompilerOptions} (h : o.same p = true) (name : Text)
    {get : CompilerOptions → Option Bool} (set : CompilerOptions → Option Bool → CompilerOptions)
    (hs : flag name get set ∈ slots) : get o = get p :=
  beq_iff_eq.mp (agree_of_same h hs)

theorem sourceMap_eq_of_same {o p : CompilerOptions} (h : o.same p = true) :
    o.sourceMap = p.sourceMap :=
  flag_eq_of_same h "sourceMap" (fun o v => { o with sourceMap := v })
    (by simp [slots])

theorem inlineSources_eq_of_same {o p : CompilerOptions} (h : o.same p = true) :
    o.inlineSources = p.inlineSources :=
  flag_eq_of_same h "inlineSources" (fun o v => { o with inlineSources := v })
    (by simp [slots])

end CompilerOptions

namespace Miniature

/-- Options that are equal as values lead to the same code and map. -/
theorem emit_eq_of_same {o p : CompilerOptions} (h : o.same p = true) (source : Text)
    (file : Path) : emit source file o = emit source file p := by
  rw [emit, emit, CompilerOptions.effectiveModule, CompilerOptions.effectiveModule,
    CompilerOptions.module_eq_of_same h, CompilerOptions.sourceMap_eq_of_same h,
    CompilerOptions.inlineSources_eq_of_same h]

end Miniature

namespace ServiceHost

/-- Whatever options were set before, what is emitted follows the new ones. -/
theorem emit_setOptions (h : ServiceHost) (o : CompilerOptions) (text : Text) (p : Path) :
    Miniature.emit text p (h.setOptions o).options = Miniature.emit text p o := by
  rw [setOptions]
  split
  · rename_i hsame
    exact Miniature.emit_eq_of_same hsame text p
  · rfl

end ServiceHost

namespace Miniature

/-! ## The names of emitted files -/

theorem outputName_eq (file : Path) :
    ∃ ext ∈ (["mjs".toList, "cjs".toList, "js".toList] : List Text),
      outputName file = file.withExtension ext := by
  rw [outputName]
  split
  · exact ⟨"mjs".toList, by simp, rfl⟩
  · split
    · exact ⟨"cjs".toList, by simp, rfl⟩
    · exact ⟨"js".toList, by simp, rfl⟩

theorem isMap_append (name : Path) (text : Text) :
    (EmittedFile.mk (name.append ".map") text).isMap = true :=
  Text.endsWith_iff.mpr ⟨name.text, rfl⟩

/-- A file is JavaScript if its name ends neither as those of maps nor as those of
declarations do. -/
theorem isCode_of_text {name : Path} {text t : Text} (h : name.text = t)
    (hmap : Text.endsWith t ".map" = false) (hd : Text.endsWith t ".d.ts" = false) :
    (EmittedFile.mk name text).isMap = false ∧ (EmittedFile.mk name text).isCode = true := by
  have hm : (EmittedFile.mk name text).isMap = false := by rw [EmittedFile.isMap, h, hmap]
  refine ⟨hm, ?_⟩
  rw [EmittedFile.isCode, hm, h, hd]
  rfl

/-- The JavaScript file is taken for what it is. -/
theorem isCode_outputName {file : Path} (hn : file.normalize = file) (text : Text) :
    (EmittedFile.mk (outputName file) text).isMap = false ∧
      (EmittedFile.mk (outputName file) text).isCode = true := by
  obtain ⟨ext, hext, hname⟩ := outputName_eq file
  rw [hname]
  have hne : ext ≠ [] := by
    rintro rfl
    simp at hext
  rcases Path.withExtension_cases file hne with ⟨front, h⟩ | ⟨front, h⟩ | ⟨hnone, h⟩
  · refine isCode_of_text h ?_ ?_ <;>
    · simp only [List.mem_cons, List.not_mem_nil, or_false] at hext
      rcases hext with rfl | rfl | rfl <;>
        simp [Text.endsWith, Text.startsWith, Text.dropPrefix?]
  · refine isCode_of_text h ?_ ?_ <;> simp [Text.endsWith, Text.startsWith, Text.dropPrefix?]
  · have htext := Path.text_of_normal_nameless hn hnone
    rw [h]
    simp only [List.mem_cons, List.not_mem_nil, or_false] at htext
    rcases htext with htext | htext | htext | htext <;>
      exact isCode_of_text htext (by decide) (by decide)

/-! ## The output picked -/

theorem selectOutput_filesFor {file : Path} (hn : file.normalize = file) (source : Text)
    (o : CompilerOptions) :
    LanguageCompiler.selectOutput file { files := Engine.filesFor source file o } =
      .ok (.finalize (emit source file o).1 (emit source file o).2 file) := by
  cases he : emit source file o with
  | mk code map =>
    obtain ⟨hmap, hcode⟩ := isCode_outputName hn code
    cases map with
    | none =>
      simp [LanguageCompiler.selectOutput, Engine.filesFor, he, Emitted.code?, Emitted.map?,
        hmap, hcode]
    | some m =>
      have hm := isMap_append (outputName file) m
      have hmcode : (EmittedFile.mk ((outputName file).append ".map") m).isCode = false := by
        rw [EmittedFile.isCode, hm]
        rfl
      simp only [LanguageCompiler.selectOutput, Engine.filesFor, he, Emitted.code?, Emitted.map?,
        Option.map_some, Option.toList_some, List.cons_append, List.nil_append,
        List.find?_cons_of_pos hm, List.find?_cons_of_pos hcode,
        List.find?_cons_of_neg (Bool.eq_false_iff.mp hmcode), Bool.false_eq_true, if_false]

end Miniature
end TestTransform

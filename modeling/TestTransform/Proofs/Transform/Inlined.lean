/-
Source maps end to end.

A file that is compiled on its own by the miniature compiler comes out as the JavaScript that was
emitted for it and one comment more.  The comment carries the map that is given beside the code:
that of the compiler, with the file for its source.
-/
import TestTransform.Proofs.Config.Alike
import TestTransform.Proofs.Miniature.Inlined
import TestTransform.Proofs.Options.Values
import TestTransform.Proofs.Transform.Made
import TestTransform.Proofs.Transform.Verdict

namespace TestTransform

/-! ## Options -/

/-- Every configuration set asks for maps with the sources in them. -/
theorem ConfigSet.maps_of_build {view : FileView} {registry : CompilerRegistry} {codes : List Nat}
    {host : HostConfig} {c : ConfigSet} (h : build view registry codes host = .ok c) :
    c.options.sourceMap = some true ∧ c.options.inlineSources = some true := by
  obtain ⟨o, resolved, hc⟩ := build_eq_ok h
  obtain ⟨file, typed, hr⟩ := ResolvedTsConfig.resolve_eq_ok hc.resolve
  have hoptions : c.options = ResolvedTsConfig.complete host typed := by
    rw [hc.eq]
    exact hr.options
  rw [hoptions]
  exact ⟨rfl, rfl⟩

/-- The module system does not bear on maps. -/
theorem ConfigSet.maps_optionsFor (c : ConfigSet) (t : TransformOptions) :
    (c.optionsFor t).sourceMap = c.options.sourceMap ∧
      (c.optionsFor t).inlineSources = c.options.inlineSources := by
  rw [optionsFor, CompilerOptions.forModuleSystem]
  split <;> exact ⟨rfl, rfl⟩

/-! ## Compiling a file on its own -/

namespace IsolatedCompiler

/-- A file of no other project comes out as it was emitted, whatever was reported about it. -/
theorem eq_of_compile {config : ConfigSet} {w : Surroundings} {content : Text} {file : Path}
    {options : TransformOptions} {out : CompiledOutput} (hm : w.engine.IsMiniature)
    (hreferences : config.references = []) (hfile : file.normalize = file)
    (h : (compile config content file options w).1 = .ok out) :
    out = .finalize (Miniature.emit content file (config.optionsFor options)).1
      (Miniature.emit content file (config.optionsFor options)).2 file := by
  obtain ⟨m, hm⟩ := hm.exists
  have hnone : config.referenceFor? file = none := by
    rw [ConfigSet.referenceFor?, hreferences]
    rfl
  simp only [compile, hfile, hnone, transpile, hm] at h
  obtain ⟨u, -, hu⟩ := Except.map_eq_ok.mp h
  exact hu.symm

end IsolatedCompiler

namespace Transformer

variable {t t' : Transformer} {w : World} {i : Nat}

/-- Without a fallback the result of compiling a TypeScript file is the result. -/
theorem transform_typeScript {source : Text} {file : Path} {options : TransformOptions}
    (hfallback : t.fallback = none) (hkind : FileKind.ofPath file = .typeScript)
    (hdeclaration : file.isDeclaration = false)
    (hstringify : (t.compiler i).config.shouldStringify file = false) {out : TransformedSource}
    (h : (t.transform w i source file options).1 = .ok out) :
    ((t.compiler i).compileIn w source file options).1 = .ok ⟨out.code, out.map⟩ := by
  simp only [transform, hdeclaration, hstringify, translate, hkind, Bool.false_eq_true,
    if_false] at h
  generalize (t.compiler i).compileIn w source file options = compiled at h ⊢
  obtain ⟨outcome, c, w'⟩ := compiled
  cases outcome with
  | error e => cases h
  | ok o =>
    have hnone : (t.setCompiler i c).fallback = none := hfallback
    simp only [handOn, hnone] at h
    cases h
    rfl

/-- The output of a TypeScript file under a configuration for isolated modules is that of
compiling it on its own. -/
theorem compiled_of_process (hcalled : Called t w) {r : Request} {host : LiveHost} {c : ConfigSet}
    (hc : t.configFor? w (.live host) = some c) (hisolated : c.isolated = true)
    (hfallback : t.fallback = none)
    (hkind : FileKind.ofPath (c.rootDir.resolve r.path) = .typeScript)
    (hdeclaration : (c.rootDir.resolve r.path).isDeclaration = false)
    (hstringify : c.shouldStringify (c.rootDir.resolve r.path) = false) {out : TransformedSource}
    (hout : (t.process w r.source r.path host r.options).1 = .ok out) :
    (IsolatedCompiler.compile c r.source (c.rootDir.resolve r.path) r.options
        (w.surroundings c.compiler.id)).1 = .ok ⟨out.code, out.map⟩ ∧
      ∃ view registry codes h, ConfigSet.build view registry codes h = .ok c := by
  rw [process_eq] at hout
  cases hfind : t.find w (.live host) with
  | error e =>
    rw [hfind] at hout
    cases hout
  | ok found =>
    obtain ⟨i, t'⟩ := found
    rw [configFor?_of_find hfind] at hc
    cases hc
    rw [hfind] at hout
    obtain ⟨hmade, hi⟩ := find_made hcalled.made hfind
    have hcompiler := (hmade.all _ (compiler_mem hi)).eq_isolated hisolated
    have hnone : t'.fallback = none := (found_of_find hfind).fallback.trans hfallback
    have hcompiled := transform_typeScript hnone hkind hdeclaration hstringify hout
    rw [hcompiler] at hcompiled
    exact ⟨hcompiled, hmade.built _ (compiler_mem hi)⟩

/-- A TypeScript file with a plain name, compiled on its own and handed to no fallback: what is
given is the JavaScript body with one comment behind it, on a line of its own.  The comment
spells the map.  In that the file stands for itself and for its only source, and all else is as
it was emitted, with the text of the source. -/
theorem process_inlines (hcalled : Called t w) {r : Request} {host : LiveHost} {c : ConfigSet}
    (hc : t.configFor? w (.live host) = some c) (hm : (w.engine c.compiler.id).IsMiniature)
    (hisolated : c.isolated = true) (hreferences : c.references = [])
    (hfallback : t.fallback = none)
    (hkind : FileKind.ofPath (c.rootDir.resolve r.path) = .typeScript)
    (hdeclaration : (c.rootDir.resolve r.path).isDeclaration = false)
    (hstringify : c.shouldStringify (c.rootDir.resolve r.path) = false)
    (hline : ∀ name ∈ (c.rootDir.resolve r.path).name?, '\n' ∉ name) {out : TransformedSource}
    (hout : (t.process w r.source r.path host r.options).1 = .ok out) :
    let body := Miniature.emitBody r.source (c.optionsFor r.options).effectiveModule.isEsModule
    let name := Text.replaceChar '\\' '/' (c.rootDir.resolve r.path).text
    ∃ payload map fields emitted,
      out.code = body ++ (CompiledOutput.marker ++ CompiledOutput.dataPrefix ++ payload) ∧
      body.IsEnded ∧ (∀ d ∈ payload, Base64.IsWritten d) ∧
      out.map = some map ∧ Base64.decode? payload = some map.utf8 ∧
      Json.ofText? map = some (.obj fields) ∧
      Miniature.sourceMap r.source (c.rootDir.resolve r.path) true = .obj emitted ∧
      Json.field? "file" fields = some (.str name) ∧
      Json.field? "sources" fields = some (.arr [.str name]) ∧
      Json.field? "sourcesContent" fields = some (.arr [.str r.source]) ∧
      Json.field? "sourceRoot" fields = none ∧
      ∀ key, key ∉ (["file".toList, "sources".toList, "sourceRoot".toList] : List Text) →
        Json.field? key fields = Json.field? key emitted := by
  intro body name
  obtain ⟨hcompiled, view, registry, codes, h, hbuild⟩ :=
    compiled_of_process hcalled hc hisolated hfallback hkind hdeclaration hstringify hout
  obtain ⟨hmap, hsources⟩ := ConfigSet.maps_of_build hbuild
  obtain ⟨hmap', hsources'⟩ := c.maps_optionsFor r.options
  obtain ⟨fileName, hname, -⟩ := FileKind.isDotted_of_ne_other (by rw [hkind]; decide)
  obtain ⟨emitted, map, hemitted, hread, hfinal⟩ := Miniature.finalize_emit hname
    (hline _ hname) (hmap'.trans hmap) (hsources'.trans hsources) r.source
  obtain ⟨emitted', hemitted', hcontent⟩ :=
    Miniature.exists_sourceMap r.source (c.rootDir.resolve r.path)
  have hfile := resolve_normal c.rootDir r.path
  have hfinalized := (IsolatedCompiler.eq_of_compile hm hreferences hfile hcompiled).trans hfinal
  injection hfinalized with hcode hmapped
  rw [hemitted] at hemitted'
  cases hemitted'
  refine ⟨Base64.encode map.utf8, map, _, emitted, hcode, Miniature.isEnded_emitBody _ _,
    Base64.isWritten_of_mem_encode _, hmapped, Base64.decode?_encode _, hread, hemitted,
    ?_, ?_, ?_, ?_, fun key hkey => ?_⟩
  · rw [CompiledOutput.field?_retarget]
    rfl
  · rw [CompiledOutput.field?_retarget]
    rfl
  · rw [CompiledOutput.field?_retarget]
    exact hcontent
  · rw [CompiledOutput.field?_retarget]
    rfl
  · simp only [List.mem_cons, List.not_mem_nil, or_false, not_or] at hkey
    rw [CompiledOutput.field?_retarget, if_neg hkey.2.2, if_neg hkey.2.1, if_neg hkey.1]

/-- The source has the marker in a string of its last line. -/
def marked : Request where
  source := "const url: string = \"//# sourceMappingURL=a\";"
  path := Path.ofString "a.ts"

/-- The string stays in the body, and the map is in the comment. -/
theorem process_inlines_marked :
    let t : Transformer := { registry := Catalogue.registry }
    ∃ out payload map,
      (t.process {} marked.source marked.path ⟨some 0, Catalogue.host⟩ marked.options).1 = .ok out ∧
      out.code = "\"use strict\";\nconst url = \"//# sourceMappingURL=a\";\n" ++
        (CompiledOutput.marker ++ CompiledOutput.dataPrefix ++ payload) ∧
      out.map = some map ∧ Base64.decode? payload = some map.utf8 := by
  intro t
  obtain ⟨hok, hconfig⟩ :
      (t.process {} marked.source marked.path ⟨some 0, Catalogue.host⟩ marked.options).1.isOk =
        true ∧
      (t.configFor? {} (.live ⟨some 0, Catalogue.host⟩)).any (fun c =>
        c.isolated && c.references.isEmpty && c.stringify.isNone &&
          c.rootDir == Path.ofString "/project" && c.compiler.id == 0 &&
          !(c.optionsFor marked.options).effectiveModule.isEsModule) = true := by
    decide +kernel
  have hbody : Miniature.emitBody marked.source false =
      "\"use strict\";\nconst url = \"//# sourceMappingURL=a\";\n" := by
    decide +kernel
  cases hc : t.configFor? {} (.live ⟨some 0, Catalogue.host⟩) with
  | none =>
    rw [hc] at hconfig
    cases hconfig
  | some c =>
    rw [hc, Option.any_some] at hconfig
    simp only [Bool.and_eq_true, beq_iff_eq, List.isEmpty_iff, Option.isNone_iff_eq_none,
      Bool.not_eq_true'] at hconfig
    obtain ⟨⟨⟨⟨⟨hisolated, hreferences⟩, hstringify⟩, hroot⟩, hid⟩, hesm⟩ := hconfig
    cases hout : (t.process {} marked.source marked.path ⟨some 0, Catalogue.host⟩
        marked.options).1 with
    | error e =>
      rw [hout] at hok
      cases hok
    | ok out =>
      obtain ⟨payload, map, -, -, hcode, -, -, hmap, hpayload, -⟩ :=
        process_inlines (.start Catalogue.registry none {}) hc (by rw [hid]; trivial) hisolated
          hreferences rfl (by rw [hroot]; decide) (by rw [hroot]; decide)
          (by rw [ConfigSet.shouldStringify, hstringify]; rfl) (by rw [hroot]; decide) hout
      rw [hesm, hbody] at hcode
      exact ⟨out, payload, map, rfl, hcode, hmap, hpayload⟩

end Transformer
end TestTransform

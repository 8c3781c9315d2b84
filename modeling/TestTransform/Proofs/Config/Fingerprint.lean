/-
What the digest of a configuration set is taken of.

The text that is hashed has a place for everything that is told apart, and every value in
it can be read off again.
-/
import TestTransform.Config.Set
import TestTransform.Proofs.Digest.Parts
import TestTransform.Proofs.Options.Typed

namespace TestTransform
namespace ConfigSet

/-- Whether two configuration sets agree on everything that the digest tells apart. -/
structure Matches (c d : ConfigSet) : Prop where
  compilerName : c.compilerName = d.compilerName
  options : c.options.typed = d.options.typed
  enabled : c.diagnostics.enabled = d.diagnostics.enabled
  ignoreCodes : c.diagnostics.ignoreCodes = d.diagnostics.ignoreCodes
  pathRegex : c.diagnostics.pathRegex.map (·.source) = d.diagnostics.pathRegex.map (·.source)
  pretty : c.diagnostics.pretty = d.diagnostics.pretty
  throws : c.diagnostics.throws = d.diagnostics.throws
  isolated : c.isolated = d.isolated
  rootDir : c.rootDir = d.rootDir
  stringify : c.stringify.map (·.source) = d.stringify.map (·.source)
  patterns : c.tests.patterns = d.tests.patterns
  testRegexes : c.host.testRegexes = d.host.testRegexes
  tsconfigPath : c.tsconfigPath = d.tsconfigPath
  useEsm : c.useEsm = d.useEsm

theorem fingerprint_eq (c : ConfigSet) : c.fingerprint = .obj
    [ ("compiler", .obj [("name", .str c.compilerName), ("version", .str c.compiler.version)]),
      ("compilerOptions", c.options.toJson.canon),
      ("diagnostics", .obj
        [ ("enabled", .bool c.diagnostics.enabled),
          ("ignoreCodes", (Json.arr (c.diagnostics.ignoreCodes.map Json.ofNat)).canon),
          ("pathRegex", (Json.ofOption (fun r => .str r.source) c.diagnostics.pathRegex).canon),
          ("pretty", .bool c.diagnostics.pretty),
          ("throws", .bool c.diagnostics.throws) ]),
      ("isolatedModules", .bool c.isolated),
      ("references", (Json.arr (c.references.map fun r => .str r.configPath.text)).canon),
      ("rootDir", .str c.rootDir.text),
      ("stringifyContentPathRegex", (Json.ofOption (fun r => .str r.source) c.stringify).canon),
      ("testMatch", (Json.ofTexts c.tests.patterns).canon),
      ("testRegex", (Json.ofTexts c.host.testRegexes).canon),
      ("tsconfig", (Json.ofOption HostConfig.pathJson c.tsconfigPath).canon),
      ("useESM", .bool c.useEsm),
      ("version", .str version) ] := rfl

theorem bool_of_compact {a b : Bool} (h : (Json.bool a).compact = (Json.bool b).compact) : a = b :=
  (Json.bool.inj (Json.eq_of_compact_bool h)).symm

theorem text_of_compact {s t : Text} (h : (Json.str s).compact = (Json.str t).compact) : s = t :=
  (Json.str.inj (Json.eq_of_compact_str h)).symm

/-- The values of an object with given names, if it is spelled like another one. -/
theorem spelled_of_compact {fs gs : Json.Fields}
    (h : (Json.obj fs).compact = (Json.obj gs).compact) : Json.spelled fs = Json.spelled gs := by
  obtain ⟨gs', hobj, hspelled⟩ := Json.exists_obj_of_compact h
  cases hobj
  exact hspelled

theorem matches_of_fingerprint {c d : ConfigSet} (hc : c.options.Separate)
    (hd : d.options.Separate) (h : c.fingerprint.compact = d.fingerprint.compact) :
    c.Matches d := by
  rw [fingerprint_eq, fingerprint_eq] at h
  have hfields := spelled_of_compact h
  simp only [Json.spelled, List.map_cons, List.map_nil, List.cons.injEq, Prod.mk.injEq,
    true_and, and_true] at hfields
  obtain ⟨hcompiler, hoptions, hdiagnostics, hisolated, -, hroot, hstringify, htestMatch,
    htestRegex, htsconfig, hesm⟩ := hfields
  have hnames := spelled_of_compact hcompiler
  have hpolicy := spelled_of_compact hdiagnostics
  simp only [Json.spelled, List.map_cons, List.map_nil, List.cons.injEq, Prod.mk.injEq,
    true_and, and_true] at hnames hpolicy
  obtain ⟨henabled, hignore, hpath, hpretty, hthrows⟩ := hpolicy
  exact {
    compilerName := text_of_compact hnames.1
    options := CompilerOptions.typed_eq_of_compact hc hd hoptions
    enabled := bool_of_compact henabled
    ignoreCodes := Json.eq_of_compact_ofNats hignore
    pathRegex := Json.map_eq_of_compact_ofOption hpath
    pretty := bool_of_compact hpretty
    throws := bool_of_compact hthrows
    isolated := bool_of_compact hisolated
    rootDir := congrArg Path.mk (text_of_compact hroot)
    stringify := Json.map_eq_of_compact_ofOption hstringify
    patterns := Json.eq_of_compact_ofTexts htestMatch
    testRegexes := Json.eq_of_compact_ofTexts htestRegex
    tsconfigPath := by
      have htexts := Json.map_eq_of_compact_ofOption htsconfig
      exact Option.map_injective (fun p q hpq => congrArg Path.mk hpq) htexts
    useEsm := bool_of_compact hesm }

end ConfigSet
end TestTransform

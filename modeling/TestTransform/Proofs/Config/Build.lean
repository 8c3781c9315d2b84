/-
What a configuration set is built from.
-/
import TestTransform.Config.Set
import TestTransform.Proofs.Except

namespace TestTransform

namespace ResolvedTsConfig

/-- Without a configuration file nothing is read. -/
theorem resolve_congr {view view' : FileView} {h : HostConfig} {source : Option TsConfigSource}
    (hnone : locate view h source = .ok none) (hnone' : locate view' h source = .ok none)
    (withFileNames : Bool) :
    resolve view h source withFileNames = resolve view' h source withFileNames := by
  rw [resolve, resolve, hnone, hnone']
  simp only [bind, Except.bind, Option.isSome_none, Bool.and_false, Bool.false_eq_true, if_false,
    List.mapM_nil]

theorem locate_eq_none {view : FileView} {h : HostConfig} {source : Option TsConfigSource}
    (hfind : TsConfig.find? view h.rootDir = none) (hfile : ∀ t, source ≠ some (.file t)) :
    locate view h source = .ok none := by
  unfold locate
  split
  · rfl
  · exact absurd rfl (hfile _)
  · rw [hfind]

end ResolvedTsConfig

namespace ConfigSet

variable {view : FileView} {registry : CompilerRegistry} {codes : List Nat} {host : HostConfig}
  {c : ConfigSet}

/-- The pattern of the files to stringify, if one is given. -/
def readStringify (o : HostOptions) : Except ConfigError (Option SourcePattern) :=
  match o.stringifyContentPathRegex with
  | some t => (SourcePattern.read .stringifyContentPathRegex t).map some
  | none => .ok none

/-- What a configuration set holds, and where each part comes from. -/
structure BuiltFrom (view : FileView) (registry : CompilerRegistry) (codes : List Nat)
    (host : HostConfig) (o : HostOptions) (resolved : ResolvedTsConfig) (c : ConfigSet) : Prop where
  options : host.options = .ok o
  resolve : ResolvedTsConfig.resolve view host o.tsconfig (!o.isolatedModules) = .ok resolved
  diagnostics : DiagnosticsPolicy.ofSetting o.diagnostics codes = .ok c.diagnostics
  compiler : registry.resolve c.compilerName = .ok c.compiler
  stringify : readStringify o = .ok c.stringify
  tests : TestMatcher.ofHost host = .ok c.tests
  eq : c = {
    host
    tsconfigPath := resolved.path
    options := resolved.options
    fileNames := resolved.fileNames
    references := resolved.references
    diagnostics := c.diagnostics
    isolated := o.isolatedModules
    useEsm := o.useEsm
    compilerName := o.compiler.getD CompilerRegistry.defaultName
    compiler := c.compiler
    cacheDirectory := host.cacheDirectory.map fun dir => host.resolvePath dir.text
    stringify := c.stringify
    tests := c.tests }

theorem build_eq_ok (h : build view registry codes host = .ok c) :
    ∃ o resolved, BuiltFrom view registry codes host o resolved c := by
  simp only [build, Except.bind_eq_ok] at h
  obtain ⟨o, ho, resolved, hresolve, diagnostics, hdiagnostics, compiler, hcompiler, h⟩ := h
  cases hregex : o.stringifyContentPathRegex <;>
    simp only [hregex, Except.bind_eq_ok] at h <;>
    obtain ⟨stringify, hstringify, tests, htests, hc⟩ := h <;>
    cases hc <;>
    exact ⟨o, resolved, ho, hresolve, hdiagnostics, hcompiler,
      by rw [readStringify, hregex]; exact hstringify, htests, rfl⟩

theorem host_of_build (h : build view registry codes host = .ok c) : c.host = host := by
  obtain ⟨o, resolved, hc⟩ := build_eq_ok h
  rw [hc.eq]

theorem cacheDirectory_of_build (h : build view registry codes host = .ok c) :
    c.cacheDirectory = host.cacheDirectory.map fun dir => host.resolvePath dir.text := by
  obtain ⟨o, resolved, hc⟩ := build_eq_ok h
  rw [hc.eq]

theorem build_congr {view' : FileView} {o : HostOptions} (ho : host.options = .ok o)
    (hnone : ResolvedTsConfig.locate view host o.tsconfig = .ok none)
    (hnone' : ResolvedTsConfig.locate view' host o.tsconfig = .ok none) :
    build view registry codes host = build view' registry codes host := by
  rw [build, build, ho]
  simp only [bind, Except.bind, ResolvedTsConfig.resolve_congr hnone hnone']

end ConfigSet
end TestTransform

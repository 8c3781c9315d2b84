/-
What the digest of a configuration set settles.

The digest is taken of the options as they are written, of the texts of all patterns, and of
the paths of the referenced configuration files.  So sets with the same digest answer alike,
whatever hosts and files they come from, except for what the referenced files say: their
contents are not part of it.
-/
import TestTransform.Files.Store
import TestTransform.Proofs.Config.Reading

namespace TestTransform
namespace ConfigSet

section Digest

variable {view view' : FileView} {registry registry' : CompilerRegistry} {codes codes' : List Nat}
  {host host' : HostConfig} {c d : ConfigSet}

/-- Whether projects with the same configuration file are the same. -/
def SameProjects (c d : ConfigSet) : Prop :=
  ∀ r ∈ c.references, ∀ s ∈ d.references, r.configPath = s.configPath → r = s

/-- Whether two configuration sets answer alike, about referenced projects only as far as these
are the same. -/
structure AnswerAlike (c d : ConfigSet) : Prop where
  options : ∀ o, c.optionsFor o = d.optionsFor o
  allowsJs : c.allowsJs = d.allowsJs
  shouldReport : ∀ file, c.shouldReport file = d.shouldReport file
  ignoreCodes : c.diagnostics.ignoreCodes = d.diagnostics.ignoreCodes
  shouldStringify : ∀ file, c.shouldStringify file = d.shouldStringify file
  /-- The answer for a file that has not been asked about. -/
  isTest : ∀ file, (c.tests.isTest {} file).1 = (d.tests.isTest {} file).1
  projects : c.references.map (·.configPath) = d.references.map (·.configPath)
  referenceFor : SameProjects c d → ∀ file, c.referenceFor? file = d.referenceFor? file
  outputFor : SameProjects c d → ∀ file,
    (c.referenceFor? file).map (·.outputFor file) = (d.referenceFor? file).map (·.outputFor file)

/-- The options and the referenced files that the digest is taken of. -/
theorem written_of_fingerprint (h : c.fingerprint.compact = d.fingerprint.compact) :
    c.options.toJson.canon.compact = d.options.toJson.canon.compact ∧
      c.references.map (·.configPath) = d.references.map (·.configPath) := by
  rw [fingerprint_eq, fingerprint_eq] at h
  have hfields := spelled_of_compact h
  simp only [Json.spelled, List.map_cons, List.map_nil, List.cons.injEq, Prod.mk.injEq,
    true_and, and_true] at hfields
  obtain ⟨-, hoptions, -, -, hreferences, -⟩ := hfields
  have htexts : ∀ rs : List ProjectReference, Json.arr (rs.map fun r => .str r.configPath.text) =
      Json.ofTexts (rs.map fun r => r.configPath.text) := by
    intro rs
    rw [Json.ofTexts, List.map_map]
    rfl
  rw [htexts, htexts] at hreferences
  have hpaths := congrArg (List.map Path.mk) (Json.eq_of_compact_ofTexts hreferences)
  rw [List.map_map, List.map_map] at hpaths
  exact ⟨hoptions, hpaths⟩

/-- Lists of projects with the same configuration files, each of which gives one project. -/
theorem eq_of_configPaths {rs ss : List ProjectReference}
    (hpaths : rs.map (·.configPath) = ss.map (·.configPath))
    (hsame : ∀ r ∈ rs, ∀ s ∈ ss, r.configPath = s.configPath → r = s) : rs = ss := by
  induction rs generalizing ss with
  | nil => exact (List.map_eq_nil_iff.mp hpaths.symm).symm
  | cons r rs ih =>
    cases ss with
    | nil => cases hpaths
    | cons s ss =>
      rw [List.map_cons, List.map_cons, List.cons.injEq] at hpaths
      have hrest : ∀ r ∈ rs, ∀ s ∈ ss, r.configPath = s.configPath → r = s := fun r hr s hs =>
        hsame r (List.mem_cons_of_mem _ hr) s (List.mem_cons_of_mem _ hs)
      rw [hsame r List.mem_cons_self s List.mem_cons_self hpaths.1, ih hpaths.2 hrest]

/-- Configuration sets with the same digest answer alike. -/
theorem answerAlike_of_cacheKey (hc : build view registry codes host = .ok c)
    (hd : build view' registry' codes' host' = .ok d) (hhost : host.IsProper)
    (hhost' : host'.IsProper)
    (hhash : Blake3.TellsApart c.fingerprint.compact.utf8 d.fingerprint.compact.utf8)
    (hkey : c.cacheKey = d.cacheKey) : AnswerAlike c d := by
  have hcompact : c.fingerprint.compact = d.fingerprint.compact := Text.utf8_injective (hhash hkey)
  have hmatches := matches_of_fingerprint (separate_of_build hc) (separate_of_build hd) hcompact
  obtain ⟨hdiagnostics, hstringify, htests⟩ := settled_of_matches hc hd hmatches
  obtain ⟨hwritten, hpaths⟩ := written_of_fingerprint hcompact
  have hoptions : c.options = d.options :=
    CompilerOptions.eq_of_compact (separate_of_build hc) (separate_of_build hd)
      (isProper_of_build hhost hc) (isProper_of_build hhost' hd) hwritten
  have hreferences : SameProjects c d → ∀ file, c.referenceFor? file = d.referenceFor? file := by
    intro hsame file
    rw [referenceFor?, eq_of_configPaths hpaths hsame, referenceFor?]
  exact {
    options := fun o => by rw [optionsFor, optionsFor, hoptions, hmatches.useEsm]
    allowsJs := by rw [allowsJs, allowsJs, hoptions]
    shouldReport := fun file => by rw [shouldReport, shouldReport, hdiagnostics]
    ignoreCodes := hmatches.ignoreCodes
    shouldStringify := fun file => by rw [shouldStringify, shouldStringify, hstringify]
    isTest := fun file => by rw [htests]
    projects := hpaths
    referenceFor := hreferences
    outputFor := fun hsame file => by rw [hreferences hsame file] }

end Digest

/-! ## A referenced project that moves its output -/

namespace Moved

def registry : CompilerRegistry :=
  ({} : CompilerRegistry).register CompilerRegistry.defaultName ⟨0, "5"⟩

def host : HostConfig where
  rootDir := Path.ofString "/project"

/-- A project that refers to another one, whose output goes to a directory. -/
def disk (outDir : Text) : Disk where
  store := (({} : Store).add (Path.ofString "/project/tsconfig.json")
      "\x7b\"references\": [\x7b\"path\": \"lib\"\x7d]\x7d").add
    (Path.ofString "/project/lib/tsconfig.json")
      ("\x7b\"compilerOptions\": \x7b\"outDir\": \"" ++ outDir ++ "\"\x7d\x7d")

def set? (outDir : Text) : Option ConfigSet :=
  (build (disk outDir).view registry [] host).toOption

def file : Path := Path.ofString "/project/lib/a.ts"

/-- Where a set looks for the output of a file of the referenced project. -/
def output? (c : ConfigSet) : Option Path := (c.referenceFor? file).map (·.outputFor file)

theorem exists_set {outDir : Text} (h : (set? outDir).isSome = true) :
    ∃ c, build (disk outDir).view registry [] host = .ok c ∧ set? outDir = some c := by
  rw [set?] at h ⊢
  generalize build (disk outDir).view registry [] host = c at h ⊢
  cases c with
  | error e => cases h
  | ok c => exact ⟨c, rfl, rfl⟩

/-- The sets before and after the change. -/
theorem exists_sets : ∃ c d, build (disk "first").view registry [] host = .ok c ∧
    build (disk "second").view registry [] host = .ok d ∧ c.fingerprint = d.fingerprint ∧
    output? c = some (Path.ofString "/project/lib/first/a.js") ∧
    output? d = some (Path.ofString "/project/lib/second/a.js") := by
  obtain ⟨hfirst, hsecond, hsame, hout, hout'⟩ :
      (set? "first").isSome = true ∧ (set? "second").isSome = true ∧
      (set? "first").map ConfigSet.fingerprint = (set? "second").map ConfigSet.fingerprint ∧
      (set? "first").bind output? = some (Path.ofString "/project/lib/first/a.js") ∧
      (set? "second").bind output? = some (Path.ofString "/project/lib/second/a.js") := by
    decide +kernel
  obtain ⟨c, hc, hset⟩ := exists_set hfirst
  obtain ⟨d, hd, hset'⟩ := exists_set hsecond
  rw [hset, hset'] at hsame
  rw [hset] at hout
  rw [hset'] at hout'
  exact ⟨c, d, hc, hd, Option.some.inj hsame, hout, hout'⟩

end Moved

/-- The digest stays as it was when the referenced project moves its output, and so do the
answers that do not depend on that. -/
theorem answerAlike_moved : ∃ c d,
    build (Moved.disk "first").view Moved.registry [] Moved.host = .ok c ∧
    build (Moved.disk "second").view Moved.registry [] Moved.host = .ok d ∧ AnswerAlike c d := by
  obtain ⟨c, d, hc, hd, hfingerprint, -⟩ := Moved.exists_sets
  have hhost : Moved.host.IsProper := ⟨rfl, fun n hn => by cases hn⟩
  exact ⟨c, d, hc, hd, answerAlike_of_cacheKey hc hd hhost hhost
    (fun _ => by rw [hfingerprint]) (by rw [cacheKey, hfingerprint, cacheKey])⟩

/-- Sets with the same digest look for the output of referenced projects in different places. -/
theorem not_always_outputFor : ¬ ∀ view view' registry codes host c d,
    build view registry codes host = .ok c → build view' registry codes host = .ok d →
      c.cacheKey = d.cacheKey → ∀ file,
        (c.referenceFor? file).map (·.outputFor file) =
          (d.referenceFor? file).map (·.outputFor file) := by
  intro h
  obtain ⟨c, d, hc, hd, hfingerprint, hout, hout'⟩ := Moved.exists_sets
  have hsame : Moved.output? c = Moved.output? d :=
    h _ _ _ _ _ c d hc hd (by rw [cacheKey, hfingerprint, cacheKey]) Moved.file
  rw [hout, hout'] at hsame
  revert hsame
  decide +kernel

end ConfigSet
end TestTransform

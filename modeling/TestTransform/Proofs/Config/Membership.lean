/-
Which files a referenced project claims, and which are its inputs.

A reference claims a file by its lists of files and globs alone.  The inputs are found by
walking the directories that the globs begin with, and what is excluded, lies below the output
directory or is passed by on the walk is left out there.  So every input is claimed, and a
claimed file is an input if it is listed or the walk finds it.
-/
import TestTransform.Config.Reference
import TestTransform.Files.Store
import TestTransform.Proofs.Config.Layers
import TestTransform.Proofs.Order.Sorting
import TestTransform.Proofs.Path.Normal
import TestTransform.Proofs.Path.Order

namespace TestTransform

/-! ## Sorted lists of different paths -/

namespace Sorted

theorem any_same_insertNew (p q : Path) (l : List Path) :
    (insertNew Path.cmp q l).any p.same = (p.same q || l.any p.same) := by
  induction l with
  | nil => rfl
  | cons y l ih =>
    rw [insertNew]
    split
    · rfl
    · rename_i heq
      have hsame : p.same y = p.same q := by
        rw [Path.same, Path.same, Path.cmp_eq_iff.mp heq]
      rw [List.any_cons, hsame, ← Bool.or_assoc, Bool.or_self]
    · rw [List.any_cons, ih, List.any_cons, Bool.or_left_comm]

theorem any_same_foldl_insertNew (p : Path) (new l : List Path) :
    (new.foldl (fun l q => insertNew Path.cmp q l) l).any p.same =
      (l.any p.same || new.any p.same) := by
  induction new generalizing l with
  | nil => rw [List.foldl_nil, List.any_nil, Bool.or_false]
  | cons q new ih =>
    rw [List.foldl_cons, ih, any_same_insertNew, List.any_cons, Bool.or_comm (p.same q),
      Bool.or_assoc]

theorem any_same_distinct (p : Path) (l : List Path) :
    (distinct Path.cmp l).any p.same = l.any p.same := by
  rw [distinct, any_same_foldl_insertNew]
  rfl

end Sorted

/-! ## Where globs begin -/

namespace Path

theorem components_ofComponents_current {cs : List Component} (h : ∀ c ∈ cs, c.IsStep) :
    (ofComponents (.current :: cs)).components = .current :: cs := by
  have hsplit : Text.splitOn '/' (Text.join "/" (['.'] :: cs.map Component.text)) =
      ['.'] :: cs.map Component.text := by
    refine Text.splitOn_join (by simp) fun t ht => ?_
    rcases List.mem_cons.mp ht with rfl | ht
    · decide
    · obtain ⟨c, hc, rfl⟩ := List.mem_map.mp ht
      exact Component.slash_not_mem_text (h c hc)
  have hdot : ∀ rest, Text.join "/" (['.'] :: cs.map Component.text) ≠ '/' :: rest := by
    intro rest heq
    cases hcs : cs.map Component.text with
    | nil => rw [hcs] at heq; cases heq
    | cons t ts => rw [hcs] at heq; cases heq
  show (Path.mk (Text.join "/" (['.'] :: cs.map Component.text))).components = _
  rw [components, spans, spansOf.eq_2 _ hdot, hsplit]
  simp only [List.map_cons, spansFrom_map_component, filterMap_ofPiece?_text h]

/-- The beginning of what a path is made of is read again as it is. -/
theorem components_ofComponents_of_prefix {p : Path} {cs : List Component}
    (h : cs <+: p.components) : (ofComponents cs).components = cs := by
  obtain ⟨first, steps, hp, hfirst, hsteps⟩ := components_cases p
  rw [hp] at h
  have hsub : ∀ {cs}, cs <+: steps → ∀ c ∈ cs, c.IsStep := fun h c hc => hsteps c (h.subset hc)
  rcases hfirst with rfl | rfl | rfl
  · exact components_ofComponents_steps (hsub h)
  · cases cs with
    | nil => rfl
    | cons c cs =>
      obtain ⟨rfl, hcs⟩ := List.cons_prefix_cons.mp h
      exact components_ofComponents_root (hsub hcs)
  · cases cs with
    | nil => rfl
    | cons c cs =>
      obtain ⟨rfl, hcs⟩ := List.cons_prefix_cons.mp h
      exact components_ofComponents_current (hsub hcs)

end Path

namespace InputFiles

/-- Globs that begin with the same directory begin with the same text for it. -/
theorem baseOf_eq_of_same {s t : Text} (h : (baseOf s).same (baseOf t) = true) :
    baseOf s = baseOf t := by
  have hcomponents := Path.same_iff.mp h
  rw [baseOf, baseOf, Path.components_ofComponents_of_prefix (List.takeWhile_prefix _),
    Path.components_ofComponents_of_prefix (List.takeWhile_prefix _)] at hcomponents
  exact congrArg Path.ofComponents hcomponents

/-- If there are globs at all, they were read. -/
theorem globs_of_ofConfig {view : FileView} {c : TsConfig} {outDir : Option Path}
    {names : List Path} (h : ofConfig view c outDir = .ok names) {pattern : Text}
    (hpattern : pattern ∈ patterns c) : ∃ includes excludes,
      Glob.readAll false (patterns c) = .ok includes ∧
      Glob.readAll false (c.excludes.getD []) = .ok excludes := by
  rw [ofConfig] at h
  split at h
  · rename_i hnone
    rw [hnone] at hpattern
    cases hpattern
  · simp only [Except.bind_eq_ok] at h
    obtain ⟨includes, hincludes, excludes, hexcludes, -⟩ := h
    exact ⟨includes, excludes, hincludes, hexcludes⟩

theorem rising_ofConfig {view : FileView} {c : TsConfig} {outDir : Option Path}
    {names : List Path} (h : ofConfig view c outDir = .ok names) :
    names.Pairwise fun a b => Path.cmp a b = .lt := by
  rw [ofConfig] at h
  split at h
  · cases h
    exact Sorted.distinct_rising _
  · simp only [Except.bind_eq_ok] at h
    obtain ⟨includes, -, excludes, -, h⟩ := h
    cases h
    exact Sorted.foldl_insertNew_rising (Sorted.distinct_rising _) _

/-- An input is listed or found by a walk. -/
theorem listed_or_found_of_mem {view : FileView} {c : TsConfig} {outDir : Option Path}
    {names : List Path} (h : ofConfig view c outDir = .ok names) {file : Path}
    (hfile : file ∈ names) :
    (file ∈ c.files.getD [] ∧ view.hasFile file = true) ∨
      ∃ includes excludes, Glob.readAll false (patterns c) = .ok includes ∧
        Glob.readAll false (c.excludes.getD []) = .ok excludes ∧
        ∃ pattern ∈ patterns c, file ∈ found view includes excludes outDir (baseOf pattern) := by
  have hlisted : file ∈ Sorted.distinct Path.cmp ((c.files.getD []).filter view.hasFile) →
      file ∈ c.files.getD [] ∧ view.hasFile file = true := fun hmem =>
    List.mem_filter.mp (Sorted.mem_of_mem_distinct hmem)
  rw [ofConfig] at h
  split at h
  · cases h
    exact .inl (hlisted hfile)
  · simp only [Except.bind_eq_ok] at h
    obtain ⟨includes, hincludes, excludes, hexcludes, h⟩ := h
    cases h
    rcases Sorted.mem_of_mem_foldl_insertNew hfile with hfile | hfile
    · exact .inl (hlisted hfile)
    · obtain ⟨base, hbase, hfound⟩ := List.mem_flatMap.mp hfile
      obtain ⟨pattern, hpattern, rfl⟩ := List.mem_map.mp (Sorted.mem_of_mem_distinct hbase)
      exact .inr ⟨includes, excludes, hincludes, hexcludes, pattern, hpattern, hfound⟩

/-- What the listed files that exist and the walks come to, as far as one file goes. -/
theorem any_same_ofConfig {view : FileView} {c : TsConfig} {outDir : Option Path}
    {names : List Path} (h : ofConfig view c outDir = .ok names) (file : Path) :
    names.any file.same = true ↔
      (∃ f ∈ c.files.getD [], view.hasFile f = true ∧ file.same f = true) ∨
      ∃ includes excludes, Glob.readAll false (patterns c) = .ok includes ∧
        Glob.readAll false (c.excludes.getD []) = .ok excludes ∧
        ∃ pattern ∈ patterns c, ∃ q ∈ found view includes excludes outDir (baseOf pattern),
          file.same q = true := by
  constructor
  · intro hany
    obtain ⟨q, hq, hsame⟩ := List.any_eq_true.mp hany
    rcases listed_or_found_of_mem h hq with ⟨hlisted, hexists⟩ | ⟨includes, excludes, hincludes,
      hexcludes, pattern, hpattern, hfound⟩
    · exact .inl ⟨q, hlisted, hexists, hsame⟩
    · exact .inr ⟨includes, excludes, hincludes, hexcludes, pattern, hpattern, q, hfound, hsame⟩
  have hlisted : (∃ f ∈ c.files.getD [], view.hasFile f = true ∧ file.same f = true) →
      (Sorted.distinct Path.cmp ((c.files.getD []).filter view.hasFile)).any file.same = true := by
    rintro ⟨f, hf, hexists, hsame⟩
    rw [Sorted.any_same_distinct, List.any_eq_true]
    exact ⟨f, List.mem_filter.mpr ⟨hf, hexists⟩, hsame⟩
  rw [ofConfig] at h
  split at h
  · rename_i hnone
    cases h
    rintro (hf | ⟨_, _, -, -, pattern, hpattern, -⟩)
    · exact hlisted hf
    · rw [hnone] at hpattern
      cases hpattern
  · simp only [Except.bind_eq_ok] at h
    obtain ⟨includes, hincludes, excludes, hexcludes, h⟩ := h
    cases h
    rw [Sorted.any_same_foldl_insertNew, Bool.or_eq_true]
    refine Or.imp hlisted ?_
    rintro ⟨includes', excludes', hincludes', hexcludes', pattern, hpattern, q, hq, hsame⟩
    rw [hincludes] at hincludes'
    rw [hexcludes] at hexcludes'
    cases hincludes'
    cases hexcludes'
    -- of several spellings of a beginning only one is walked, but a beginning has just one
    have hany : (Sorted.distinct Path.cmp ((patterns c).map baseOf)).any
        (baseOf pattern).same = true := by
      rw [Sorted.any_same_distinct, List.any_eq_true]
      exact ⟨_, List.mem_map_of_mem hpattern, Path.same_refl _⟩
    obtain ⟨base, hbase, hsame'⟩ := List.any_eq_true.mp hany
    obtain ⟨pattern', -, rfl⟩ := List.mem_map.mp (Sorted.mem_of_mem_distinct hbase)
    rw [← baseOf_eq_of_same hsame'] at hbase
    exact List.any_eq_true.mpr ⟨q, List.mem_flatMap.mpr ⟨_, hbase, hq⟩, hsame⟩

/-- Whether the walks for a configuration find a file that the globs take in, or would take in
if there were any. -/
structure Finds (view : FileView) (c : TsConfig) (outDir : Option Path) (file : Path) : Prop where
  /-- One of the directories that the globs begin with is walked, and the walk comes by. -/
  walked : ∃ pattern ∈ patterns c, ∃ files, view.list (baseOf pattern) = .ok files ∧ file ∈ files
  /-- Output is no input. -/
  outside : ∀ dir ∈ outDir, file.isBelow dir = false
  /-- No glob excludes the file or a directory around it. -/
  kept : ∀ excludes, Glob.readAll false (c.excludes.getD []) = .ok excludes →
    covers excludes file = false
  /-- Without globs of its own, the configuration takes in what is in its directory. -/
  inside : c.includes = none → ∀ includes, Glob.readAll false (patterns c) = .ok includes →
    covers includes file = true

/-- Whether the walks for a configuration find a file by one spelling only. -/
def FindsAs (view : FileView) (c : TsConfig) (file : Path) : Prop :=
  ∀ pattern ∈ patterns c, ∀ files, view.list (baseOf pattern) = .ok files →
    ∀ q ∈ files, file.same q = true → q = file

section Found

variable {view : FileView} {c : TsConfig} {outDir : Option Path} {file : Path} {pattern : Text}
  {includes excludes : List Glob}

theorem finds_of_mem_found (hincludes : Glob.readAll false (patterns c) = .ok includes)
    (hexcludes : Glob.readAll false (c.excludes.getD []) = .ok excludes)
    (hpattern : pattern ∈ patterns c)
    (h : file ∈ found view includes excludes outDir (baseOf pattern)) :
    Finds view c outDir file ∧ covers includes file = true := by
  obtain ⟨hmem, hfilter⟩ := List.mem_filter.mp h
  simp only [Bool.and_eq_true, Bool.not_eq_true'] at hfilter
  obtain ⟨⟨⟨-, houtside⟩, hcovers⟩, hkept⟩ := hfilter
  cases hlist : view.list (baseOf pattern) with
  | error e =>
    rw [hlist] at hmem
    cases hmem
  | ok files =>
    rw [hlist] at hmem
    refine ⟨⟨⟨pattern, hpattern, files, hlist, hmem⟩, fun dir hdir => ?_, ?_, ?_⟩, hcovers⟩
    · rw [hdir] at houtside
      exact houtside
    · intro excludes' hexcludes'
      rw [hexcludes] at hexcludes'
      cases hexcludes'
      exact hkept
    · intro _ includes' hincludes'
      rw [hincludes] at hincludes'
      cases hincludes'
      exact hcovers

theorem Finds.mem_found (h : Finds view c outDir file) (hinput : isInput file = true)
    (hexcludes : Glob.readAll false (c.excludes.getD []) = .ok excludes)
    (hcovers : covers includes file = true) :
    ∃ pattern ∈ patterns c, file ∈ found view includes excludes outDir (baseOf pattern) := by
  obtain ⟨pattern, hpattern, files, hlist, hmem⟩ := h.walked
  have hout : (outDir.any fun dir => file.isBelow dir) = false := by
    cases hdir : outDir with
    | none => rfl
    | some dir => exact h.outside dir hdir
  refine ⟨pattern, hpattern, ?_⟩
  rw [found, hlist, List.mem_filter]
  exact ⟨hmem, by rw [hinput, hout, hcovers, h.kept excludes hexcludes]; rfl⟩

/-- Without any list of globs or files there is one glob, otherwise those that are given. -/
theorem includes_or_of_mem_patterns (h : pattern ∈ patterns c) :
    c.includes = some (patterns c) ∨ (c.includes = none ∧ c.files = none) := by
  rw [patterns] at h ⊢
  split at h
  · rename_i ps hps
    exact .inl hps
  · cases h
  · rename_i hnone hfiles
    exact .inr ⟨hnone, hfiles⟩

end Found

end InputFiles

/-- A disk whose files are kept under normal forms finds them by these. -/
theorem Disk.findsAs {d : Disk} (hd : ∀ p ∈ d.store.paths, p.normalize = p) (c : TsConfig)
    {file : Path} (hfile : file.normalize = file) : InputFiles.FindsAs d.view c file := by
  intro pattern _ files hfiles q hq hsame
  have hlist : files = d.store.list (InputFiles.baseOf pattern) := by
    have hguarded : d.list (InputFiles.baseOf pattern) = .ok files := hfiles
    rw [Disk.list, Disk.guarded] at hguarded
    split at hguarded
    · cases hguarded
    · exact (Except.ok.inj hguarded).symm
  rw [hlist, Store.list] at hq
  have hnormal := hd q (List.mem_of_mem_filter hq)
  rw [← hnormal, ← hfile]
  exact (Path.normalize_congr hsame).symm

namespace TsConfig

/-- The listed files of a configuration that is read are in normal form. -/
theorem normalize_of_mem_files {view : FileView} {path : Path} {c : TsConfig}
    (h : read view path = .ok c) : ∀ f ∈ c.files.getD [], f.normalize = f := by
  obtain ⟨layers, -, hmerges⟩ := readsChain_of_read h
  rw [hmerges.files]
  intro f hf
  cases hlast : lastOf Layer.files layers with
  | none => rw [hlast] at hf; cases hf
  | some files =>
    rw [hlast] at hf
    obtain ⟨l, -, hl⟩ := List.exists_of_findSome?_eq_some hlast
    obtain ⟨written, -, rfl⟩ := Option.map_eq_some_iff.mp hl
    obtain ⟨t, -, rfl⟩ := List.mem_map.mp hf
    rw [Path.resolve]
    split <;> exact Path.normalize_normalize _

end TsConfig

namespace ProjectReference

open InputFiles

/-- What a reference holds of the configuration that it is loaded from. -/
theorem of_load {view : FileView} {path : Path} {r : ProjectReference} {c : TsConfig}
    (hr : load view path = .ok r) (hc : TsConfig.read view path = .ok c) :
    r.files = c.files ∧ (∀ ps, c.includes = some ps → ∃ globs, r.includes = some globs ∧
      Glob.readAll false ps = .ok globs) ∧ (c.includes = none → r.includes = none) := by
  rw [load, Except.bind_eq_ok] at hr
  obtain ⟨c', hc', hr⟩ := hr
  rw [hc] at hc'
  cases hc'
  cases hincludes : c.includes with
  | none =>
    rw [hincludes] at hr
    cases hr
    exact ⟨rfl, fun ps hps => (by cases hps), fun _ => rfl⟩
  | some ps =>
    rw [hincludes] at hr
    dsimp only at hr
    cases hglobs : Glob.readAll false ps with
    | error e =>
      rw [hglobs] at hr
      cases hr
    | ok globs =>
      rw [hglobs] at hr
      cases hr
      refine ⟨rfl, fun ps' hps => ?_, fun hnone => (by cases hnone)⟩
      cases hps
      exact ⟨globs, rfl, hglobs⟩

section Inputs

variable {view : FileView} {path : Path} {r : ProjectReference} {c : TsConfig}

/-- Whether a file is claimed, if it is below the root directory and declares nothing only. -/
theorem contains_iff {file : Path} (hr : load view path = .ok r)
    (hc : TsConfig.read view path = .ok c) (hbelow : file.isBelow r.rootDir = true)
    (hdeclaration : file.isDeclaration = false) :
    r.contains file = true ↔ (∃ f ∈ c.files.getD [], file.same f = true) ∨
      (∃ ps globs, c.includes = some ps ∧ Glob.readAll false ps = .ok globs ∧
        covers globs file = true) ∨ (c.includes = none ∧ c.files = none) := by
  obtain ⟨hfiles, hsome, hnone⟩ := of_load hr hc
  rw [contains, hbelow, hdeclaration, hfiles]
  cases hincludes : c.includes with
  | none =>
    rw [globsCover, hnone hincludes]
    cases c.files <;> simp
  | some ps =>
    obtain ⟨globs, hglobs, hread⟩ := hsome ps hincludes
    rw [globsCover, hglobs]
    cases c.files <;> simp [hread]

/-- A file that exists is an input if and only if the reference claims it and it is listed or
found by a walk.  What is claimed and not an input is excluded, lies below the output directory,
or is passed by on the walks. -/
theorem input_iff (file : Path) {names : List Path} (hr : load view path = .ok r)
    (hc : TsConfig.read view path = .ok c) (hnames : ofConfig view c r.outDir = .ok names)
    (hexists : view.hasFile file = true) (hinput : isInput file = true)
    (hdeclaration : file.isDeclaration = false) (hbelow : file.isBelow r.rootDir = true)
    (hnormal : file.normalize = file) (hfinds : FindsAs view c file) :
    names.any file.same = true ↔ r.contains file = true ∧
      ((∃ f ∈ c.files.getD [], file.same f = true) ∨ Finds view c r.outDir file) := by
  rw [any_same_ofConfig hnames, contains_iff hr hc hbelow hdeclaration]
  constructor
  · rintro (⟨f, hf, -, hsame⟩ | ⟨includes, excludes, hincludes, hexcludes, pattern, hpattern, q, hq,
      hsame⟩)
    · exact ⟨.inl ⟨f, hf, hsame⟩, .inl ⟨f, hf, hsame⟩⟩
    · obtain ⟨hfound, hcovers⟩ := finds_of_mem_found hincludes hexcludes hpattern hq
      obtain ⟨pattern', hpattern', files, hlist, hmem⟩ := hfound.walked
      obtain rfl := hfinds pattern' hpattern' files hlist q hmem hsame
      refine ⟨.inr ?_, .inr hfound⟩
      exact (includes_or_of_mem_patterns hpattern).imp_left fun hps =>
        ⟨patterns c, includes, hps, hincludes, hcovers⟩
  · rintro ⟨hclaimed, hfound⟩
    have hlisted : ∀ f ∈ c.files.getD [], file.same f = true →
        ∃ f ∈ c.files.getD [], view.hasFile f = true ∧ file.same f = true := by
      intro f hf hsame
      -- both are in normal form, so the listed path is the one that exists
      have hf' := TsConfig.normalize_of_mem_files hc f hf
      have heq : f = file := by
        rw [← hf', ← hnormal]
        exact (Path.normalize_congr hsame).symm
      exact ⟨f, hf, by rw [heq]; exact hexists, hsame⟩
    rcases hfound with ⟨f, hf, hsame⟩ | hfound
    · exact .inl (hlisted f hf hsame)
    rcases hclaimed with ⟨f, hf, hsame⟩ | hcovered
    · exact .inl (hlisted f hf hsame)
    obtain ⟨pattern, hpattern, -⟩ := hfound.walked
    obtain ⟨includes, excludes, hincludes, hexcludes⟩ := globs_of_ofConfig hnames hpattern
    have hcovers : covers includes file = true := by
      rcases hcovered with ⟨ps, globs, hps, hglobs, hcovers⟩ | ⟨hnone, -⟩
      · rw [patterns, hps] at hincludes
        rw [hglobs] at hincludes
        cases hincludes
        exact hcovers
      · exact hfound.inside hnone includes hincludes
    obtain ⟨pattern', hpattern', hmem⟩ := hfound.mem_found hinput hexcludes hcovers
    exact .inr ⟨includes, excludes, hincludes, hexcludes, pattern', hpattern', file, hmem,
      Path.same_refl file⟩

end Inputs

/-! ## A project that excludes a directory -/

namespace Excluding

/-- A project with neither files nor globs that leaves out its directory `gen`. -/
def disk : Disk where
  store := ([ ("/lib/tsconfig.json", "\x7b\"exclude\":[\"gen\"]\x7d"), ("/lib/b.ts", ""),
    ("/lib/gen/a.ts", "") ] : List (Text × Text)).foldl (fun s f => s.add ⟨f.1⟩ f.2) {}

def path : Path := Path.ofString "/lib/tsconfig.json"

def kept : Path := Path.ofString "/lib/b.ts"

def generated : Path := Path.ofString "/lib/gen/a.ts"

def config : TsConfig where
  path := path
  excludes := some ["/lib/gen"]

def reference : ProjectReference where
  configPath := path
  rootDir := Path.ofString "/lib"
  outDir := none
  includes := none
  files := none

theorem wasRead : TsConfig.read disk.view path = .ok config := by decide +kernel

theorem wasLoaded : ProjectReference.load disk.view path = .ok reference := by
  rw [ProjectReference.load, wasRead]
  rfl

theorem inputs : ofConfig disk.view config none = .ok [kept] := by decide +kernel

end Excluding

open Excluding in
theorem input_iff_excluding : Finds disk.view config none kept ∧
    reference.contains generated = true ∧ ¬ Finds disk.view config none generated := by
  have hpaths : ∀ p ∈ disk.store.paths, p.normalize = p := by decide +kernel
  have hkept := input_iff kept wasLoaded wasRead inputs (by decide +kernel) (by decide +kernel)
    (by decide +kernel) (by decide +kernel) (by decide +kernel)
    (disk.findsAs hpaths config (by decide +kernel))
  have hgenerated := input_iff generated wasLoaded wasRead inputs (by decide +kernel)
    (by decide +kernel) (by decide +kernel) (by decide +kernel) (by decide +kernel)
    (disk.findsAs hpaths config (by decide +kernel))
  have hclaimed : reference.contains generated = true := by decide +kernel
  refine ⟨?_, hclaimed, fun hfinds => ?_⟩
  · rcases (hkept.mp (by decide +kernel)).2 with ⟨f, hf, -⟩ | h
    · cases hf
    · exact h
  · have hinput := hgenerated.mpr ⟨hclaimed, .inr hfinds⟩
    exact absurd hinput (by decide +kernel)

open Excluding in
/-- A file that is excluded is claimed all the same. -/
theorem not_always_input : ¬ ∀ (view : FileView) (path file : Path) (r : ProjectReference)
    (c : TsConfig) (names : List Path), ProjectReference.load view path = .ok r →
    TsConfig.read view path = .ok c → ofConfig view c r.outDir = .ok names →
    view.hasFile file = true → isInput file = true → file.isDeclaration = false →
    file.isBelow r.rootDir = true → (r.contains file = true ↔ names.any file.same = true) := by
  intro h
  have hiff := h disk.view path generated reference config [kept] wasLoaded wasRead inputs
    (by decide +kernel) (by decide +kernel) (by decide +kernel) (by decide +kernel)
  exact absurd (hiff.mp (by decide +kernel)) (by decide +kernel)

end ProjectReference
end TestTransform

/-
What the walks for the input files of a project find.

Only the directories that the globs begin with are walked.  A file that a glob matches, or around
which there is a directory that it matches, lies below the directory of that glob, so no walk is
missed.
-/
import Mathlib.Data.List.TakeWhile
import TestTransform.Proofs.Config.Covered
import TestTransform.Proofs.Config.Cycles
import TestTransform.Proofs.Config.Membership
import TestTransform.Proofs.Files.Listing

namespace TestTransform

/-! ## Where configurations are -/

namespace TsConfig

open TestTransform.Path

variable {view : FileView} {path dir : Path} {name : Text}

theorem isSettled_dirOf (h : path.IsSettled) : (dirOf path).IsSettled := by
  obtain ⟨stack, hstack, rfl⟩ := h.exists_rooted
  rw [dirOf]
  cases stack with
  | nil => exact hstack.isSettled
  | cons c stack =>
    rw [parent?_rooted_cons hstack]
    exact hstack.tail.isSettled

theorem isAbsolute_withJson (h : path.isAbsolute = true) : (withJson path).isAbsolute = true := by
  rw [withJson]
  split
  · exact h
  · exact isAbsolute_append h _

theorem isAbsolute_of_mem_packageCandidates (h : dir.isAbsolute = true)
    (hpath : path ∈ packageCandidates dir name) : path.isAbsolute = true := by
  have hpackage := isAbsolute_join (isAbsolute_join h ⟨"node_modules"⟩) ⟨name⟩
  simp only [packageCandidates, List.mem_cons, List.not_mem_nil, or_false] at hpath
  obtain rfl | rfl | rfl := hpath
  · exact isAbsolute_join hpackage _
  · exact isAbsolute_withJson hpackage
  · exact hpackage

theorem isSettled_resolveBase (h : dir.IsSettled) (hbase : resolveBase view dir name = .ok path) :
    path.IsSettled := by
  refine ⟨?_, normalize_resolveBase hbase⟩
  rw [resolveBase] at hbase
  split at hbase
  · dsimp only at hbase
    split at hbase
    · cases hbase
      exact isAbsolute_withJson (isSettled_resolve h.absolute ⟨name⟩).absolute
    · cases hbase
  · split at hbase
    · rename_i p hp
      cases hbase
      obtain ⟨d, hd, hmem⟩ := List.mem_flatMap.mp (List.mem_of_find?_eq_some hp)
      exact (isSettled_normalize
        (isAbsolute_of_mem_packageCandidates (h.of_mem_ancestors hd).absolute hmem)).absolute
    · cases hbase

mutual

/-- All files that an absolute file stands for are absolute. -/
theorem Chain.isSettled : ∀ {path : Path} {layers : List Layer}, Chain view path layers →
    path.IsSettled → ∀ l ∈ layers, l.path.IsSettled
  | _, _, .intro _ hbases, hpath => by
    intro l hl
    rcases List.mem_append.mp hl with hl | hl
    · exact Bases.isSettled hbases (isSettled_dirOf hpath) l hl
    · obtain rfl := List.mem_singleton.mp hl
      exact hpath

theorem Bases.isSettled : ∀ {dir : Path} {names : List Text} {layers : List Layer},
    Bases view dir names layers → dir.IsSettled → ∀ l ∈ layers, l.path.IsSettled
  | _, _, _, .nil, _ => nofun
  | _, _, _, .cons hbase hchain hrest, hdir => by
    intro l hl
    rcases List.mem_append.mp hl with hl | hl
    · exact Chain.isSettled hchain (isSettled_resolveBase hdir hbase) l hl
    · exact Bases.isSettled hrest hdir l hl

end

/-- The globs of an absolute configuration are absolute. -/
theorem isSettled_of_mem_includes {c : TsConfig} (habs : path.isAbsolute = true)
    (h : read view path = .ok c) {ps : List Text} (hps : c.includes = some ps) :
    ∀ t ∈ ps, (Path.mk t).IsSettled := by
  obtain ⟨layers, hchain, hmerges⟩ := readsChain_of_read h
  rw [hmerges.includes] at hps
  obtain ⟨l, hl, hwritten⟩ := List.exists_of_findSome?_eq_some hps
  have hlayer := hchain.isSettled (isSettled_normalize habs) l (List.mem_reverse.mp hl)
  obtain ⟨written, -, rfl⟩ := Option.map_eq_some_iff.mp hwritten
  intro t ht
  obtain ⟨t', -, rfl⟩ := List.mem_map.mp ht
  exact isSettled_resolve (isSettled_dirOf hlayer).absolute ⟨t'⟩

theorem path_of_read {c : TsConfig} (h : read view path = .ok c) : c.path = path.normalize := by
  rw [read] at h
  cases hchain : readChain view (view.count + 2) [] path.normalize with
  | error e =>
    rw [hchain] at h
    cases h
  | ok found =>
    rw [hchain] at h
    cases h
    rw [readChain] at hchain
    split at hchain
    · cases hchain
    · simp only [Except.bind_eq_ok] at hchain
      obtain ⟨w, -, below, -, hfound⟩ := hchain
      cases hfound
      rfl

end TsConfig

/-! ## Where globs begin -/

namespace Text

theorem mem_join_of_mem {c : Char} {t sep : Text} {ts : List Text} (ht : t ∈ ts) (hc : c ∈ t) :
    c ∈ join sep ts := by
  induction ts with
  | nil => cases ht
  | cons u ts ih =>
    by_cases hts : ts = []
    · subst hts
      obtain rfl := List.mem_singleton.mp ht
      exact hc
    · rw [join_cons_of_ne hts, List.mem_append, List.mem_append]
      rcases List.mem_cons.mp ht with rfl | ht
      · exact .inl (.inl hc)
      · exact .inr (ih ht)

theorem mem_join_slash {c : Char} {ts : List Text} (h : c ∈ join "/" ts) :
    c = '/' ∨ ∃ t ∈ ts, c ∈ t := by
  induction ts with
  | nil => cases h
  | cons t ts ih =>
    by_cases hts : ts = []
    · subst hts
      exact .inr ⟨t, List.mem_cons_self, h⟩
    · rw [join_slash_cons hts, List.mem_append, List.mem_cons] at h
      rcases h with h | rfl | h
      · exact .inr ⟨t, List.mem_cons_self, h⟩
      · exact .inl rfl
      · refine (ih h).imp_right ?_
        rintro ⟨u, hu, hc⟩
        exact ⟨u, List.mem_cons_of_mem t hu, hc⟩

end Text

namespace InputFiles

open TestTransform.Path Glob

variable {pattern : Text} {q : Path} {g : Glob}

/-- Whether there is no glob notation in a component. -/
def isBare (c : Component) : Bool := !c.text.any isGlobChar

theorem components_baseOf (pattern : Text) :
    (baseOf pattern).components = (Path.mk pattern).components.takeWhile isBare :=
  components_ofComponents_of_prefix (List.takeWhile_prefix _)

theorem isPlain_of_isGlobChar {c : Char} (hglob : isGlobChar c = false) (hback : c ≠ '\\') :
    Glob.IsPlain c := by
  simp only [isGlobChar, Bool.or_eq_false_iff, beq_eq_false_iff_ne] at hglob
  simp only [Glob.IsPlain, List.mem_cons, List.not_mem_nil, or_false, not_or]
  exact ⟨hglob.1.1.1, hglob.1.1.2, hglob.1.2, hglob.2, hback⟩

theorem isPlain_of_mem_text {plain : List Component} (hplain : ∀ c ∈ plain, isBare c = true)
    (hback : '\\' ∉ (ofComponents (.root :: plain)).text) :
    ∀ c ∈ (ofComponents (.root :: plain)).text, Glob.IsPlain c := by
  intro c hc
  refine isPlain_of_isGlobChar ?_ fun heq => hback (heq ▸ hc)
  rcases List.mem_cons.mp hc with rfl | hc
  · decide
  rcases Text.mem_join_slash hc with rfl | ⟨t, ht, hct⟩
  · decide
  · obtain ⟨d, hd, rfl⟩ := List.mem_map.mp ht
    have hany := hplain d hd
    rw [isBare, Bool.not_eq_true', List.any_eq_false] at hany
    exact Bool.eq_false_iff.mpr (hany c hct)

/-- An absolute glob is written as the directory that it begins with and what follows. -/
theorem exists_plain (hpattern : (Path.mk pattern).IsSettled) : ∃ plain rest,
    IsRooted plain.reverse ∧ (∀ c ∈ plain, isBare c = true) ∧
    baseOf pattern = ofComponents (.root :: plain) ∧
    pattern = (ofComponents (.root :: (plain ++ rest))).text := by
  obtain ⟨stack, hstack, hrooted⟩ := hpattern.exists_rooted
  have htake : (Path.mk pattern).components.takeWhile isBare =
      .root :: stack.reverse.takeWhile isBare := by
    rw [hrooted, components_rooted hstack, List.takeWhile_cons_of_pos (by decide)]
  refine ⟨stack.reverse.takeWhile isBare, stack.reverse.dropWhile isBare, ?_, ?_, ?_, ?_⟩
  · refine hstack.of_suffix ?_
    rw [← List.reverse_prefix, List.reverse_reverse]
    exact List.takeWhile_prefix isBare
  · exact fun c hc => List.mem_takeWhile_imp hc
  · exact congrArg ofComponents htake
  · rw [List.takeWhile_append_dropWhile]
    exact congrArg Path.text hrooted

theorem isSettled_baseOf (hpattern : (Path.mk pattern).IsSettled) : (baseOf pattern).IsSettled := by
  obtain ⟨plain, rest, hplain, -, hbase, -⟩ := exists_plain hpattern
  rw [hbase, ← List.reverse_reverse plain]
  exact hplain.isSettled

/-- What a glob matches lies in the directory that the glob begins with. -/
theorem baseOf_prefix_of_isMatch (hpattern : (Path.mk pattern).IsSettled) (hback : '\\' ∉ pattern)
    (hread : Reads false pattern g) (hmatch : g.isMatch q.text = true) :
    q.isAbsolute = true ∧ (baseOf pattern).components <+: q.components := by
  obtain ⟨plain, rest, hrooted, hplain, hbase, rfl⟩ := exists_plain hpattern
  have hlead : (ofComponents (.root :: plain)).components = .root :: plain :=
    components_ofComponents_root fun c hc => hrooted.step c (List.mem_reverse.mpr hc)
  rw [hbase, hlead]
  by_cases hrest : rest = []
  · -- There is no notation in the glob, so it matches itself only.
    rw [hrest, List.append_nil] at hread hback
    have hq := hread.plain (isPlain_of_mem_text hplain hback) hmatch
    have hq' : q = ofComponents (.root :: plain) := congrArg Path.mk hq
    rw [hq', hlead]
    exact ⟨rfl, List.prefix_rfl⟩
  by_cases hnil : plain = []
  · -- The glob begins with the root.
    subst hnil
    have hread' : Reads false ([] ++ '/' :: Text.join "/" (rest.map Component.text)) g := hread
    obtain ⟨v, hv⟩ := hread'.below nofun hmatch
    have habs : q.isAbsolute = true := by simp [isAbsolute, hv]
    rw [components_of_isAbsolute habs]
    exact ⟨habs, List.cons_prefix_cons.mpr ⟨rfl, List.nil_prefix⟩⟩
  · rw [text_ofComponents_root hnil hrest] at hread hback
    have hleadPlain := isPlain_of_mem_text hplain fun h => hback (List.mem_append_left _ h)
    obtain ⟨v, hv⟩ := hread.below hleadPlain hmatch
    have hq : q = ⟨(ofComponents (.root :: plain)).text ++ '/' :: v⟩ := congrArg Path.mk hv
    rw [hq, components_append_slash rfl, hlead]
    exact ⟨rfl, List.prefix_append _ _⟩

/-- No file that the globs match, or around which there is a directory that they match, is out of
the way of all walks. -/
theorem exists_baseOf_of_matchedBy {sources : List Text} {file : Path} (hn : file.normalize = file)
    (hsources : ∀ t ∈ sources, (Path.mk t).IsSettled ∧ '\\' ∉ t) (h : MatchedBy sources file) :
    ∃ t ∈ sources, (baseOf t).components <+: file.components := by
  obtain ⟨t, ht, q, hq, g, hread, hmatch⟩ := h
  obtain ⟨hsettled, hback⟩ := hsources t ht
  obtain ⟨habs, hprefix⟩ := baseOf_prefix_of_isMatch hsettled hback hread hmatch
  exact ⟨t, ht, hprefix.trans (below_of_mem_ancestors hn hq habs).2⟩

/-! ## What is found -/

/-- A file of a kind that is an input, by its extension. -/
theorem isInput_iff {file : Path} : isInput file = true ↔
    ∃ ext ∈ (["ts", "tsx", "mts", "cts"] : List Text), file.extension? = some ext := by
  rw [isInput, FileKind.ofPath]
  cases hext : file.extension? with
  | none => simp
  | some ext =>
    dsimp only
    by_cases hmem : FileKind.typeScriptExtensions.contains ext = true
    · rw [if_pos hmem]
      exact ⟨fun _ => ⟨ext, List.contains_iff_mem.mp hmem, rfl⟩, fun _ => rfl⟩
    · rw [if_neg hmem]
      constructor
      · intro h
        split at h <;> cases h
      · rintro ⟨ext', hext', heq⟩
        cases heq
        exact absurd (List.contains_iff_mem.mpr hext') hmem

/-- Whether a file is one that the globs ask for: it is there, is an input by its extension, does
not lie below the output directory, and is matched by what is included and by nothing that is
excluded. -/
structure Wanted (d : Disk) (includes excludes : List Text) (outDir : Option Path) (file : Path) :
    Prop where
  stored : file ∈ d.store.paths
  input : ∃ ext ∈ (["ts", "tsx", "mts", "cts"] : List Text), file.extension? = some ext
  outside : ∀ dir ∈ outDir, ¬ dir.components <+: file.components
  included : MatchedBy includes file
  kept : ¬ MatchedBy excludes file

/-- Whether a file comes up on the walk of a directory that one of the globs begins with. -/
def ComesUp (sources : List Text) (file : Path) : Prop :=
  ∃ t ∈ sources, ∃ behind, file.components = (baseOf t).components ++ behind ∧
    Component.normal "node_modules" ∉ behind

section Found

variable {d : Disk} {c : TsConfig} {outDir : Option Path} {names : List Path} {file : Path}

/-- A walk finds the files that are asked for and to which it comes by. -/
theorem mem_found_iff (hd : d.store.InOrder) (hlist : d.denials.list = [])
    (hpattern : (Path.mk pattern).IsSettled) {included excluded : List Text}
    {includes excludes : List Glob} (hincludes : readAll false included = .ok includes)
    (hexcludes : readAll false excluded = .ok excludes) :
    file ∈ found d.view includes excludes outDir (baseOf pattern) ↔
      Wanted d included excluded outDir file ∧
        ∃ behind, file.components = (baseOf pattern).components ++ behind ∧
          Component.normal "node_modules" ∉ behind := by
  have hout : (!outDir.any fun dir => file.isBelow dir) = true ↔
      ∀ dir ∈ outDir, ¬ dir.components <+: file.components := by
    cases outDir with
    | none => simp
    | some dir => simp [← isBelow_iff]
  have hkept : (!covers excludes file) = true ↔ ¬ MatchedBy excluded file := by
    rw [← covers_iff hexcludes, Bool.not_eq_true', Bool.not_eq_true]
  rw [found, List.mem_filter, Disk.mem_list_iff hd hlist (isSettled_baseOf hpattern),
    Bool.and_eq_true, Bool.and_eq_true, Bool.and_eq_true, isInput_iff, hout, covers_iff hincludes,
    hkept]
  constructor
  · rintro ⟨⟨hstored, hbehind⟩, ⟨⟨hinput, houtside⟩, hincluded⟩, hnot⟩
    exact ⟨⟨hstored, hinput, houtside, hincluded, hnot⟩, hbehind⟩
  · rintro ⟨h, hbehind⟩
    exact ⟨⟨h.stored, hbehind⟩, ⟨⟨h.input, h.outside⟩, h.included⟩, h.kept⟩

/-- A file is an input if it is listed and exists, or is asked for and comes up on a walk. -/
theorem mem_ofConfig_iff (hd : d.store.InOrder) (hlist : d.denials.list = []) {path : Path}
    (hc : TsConfig.read d.view path = .ok c)
    (hpatterns : ∀ t ∈ patterns c, (Path.mk t).IsSettled)
    (h : ofConfig d.view c outDir = .ok names) (file : Path) :
    file ∈ names ↔ (file ∈ c.files.getD [] ∧ d.hasFile file = true) ∨
      (Wanted d (patterns c) (c.excludes.getD []) outDir file ∧ ComesUp (patterns c) file) := by
  have hforward : ∀ q ∈ names, (q ∈ c.files.getD [] ∧ d.hasFile q = true) ∨
      (Wanted d (patterns c) (c.excludes.getD []) outDir q ∧ ComesUp (patterns c) q) := by
    intro q hq
    refine (listed_or_found_of_mem h hq).imp_right ?_
    rintro ⟨includes, excludes, hincludes, hexcludes, t, ht, hfound⟩
    obtain ⟨hwanted, hbehind⟩ :=
      (mem_found_iff hd hlist (hpatterns t ht) hincludes hexcludes).mp hfound
    exact ⟨hwanted, t, ht, hbehind⟩
  have hnormal : ∀ q, (q ∈ c.files.getD [] ∧ d.hasFile q = true) ∨
      (Wanted d (patterns c) (c.excludes.getD []) outDir q ∧ ComesUp (patterns c) q) →
        q.normalize = q := by
    rintro q (⟨hq, -⟩ | ⟨hwanted, -⟩)
    · exact TsConfig.normalize_of_mem_files hc q hq
    · exact hd.normal q hwanted.stored
  refine ⟨hforward file, fun hfile => ?_⟩
  -- Files in normal form are the same only if they are equal.
  have hany : names.any file.same = true := by
    rw [any_same_ofConfig h]
    rcases hfile with ⟨hlisted, hexists⟩ | ⟨hwanted, t, ht, hbehind⟩
    · exact .inl ⟨file, hlisted, hexists, same_refl file⟩
    · obtain ⟨includes, excludes, hincludes, hexcludes⟩ := globs_of_ofConfig h ht
      refine .inr ⟨includes, excludes, hincludes, hexcludes, t, ht, file, ?_, same_refl file⟩
      exact (mem_found_iff hd hlist (hpatterns t ht) hincludes hexcludes).mpr ⟨hwanted, hbehind⟩
  obtain ⟨q, hq, hsame⟩ := List.any_eq_true.mp hany
  rw [eq_of_components_eq (hnormal file hfile) (hnormal q (hforward q hq)) (same_iff.mp hsame)]
  exact hq

end Found

/-! ## Globs of a configuration -/

/-- Whether the leading components of a glob name a directory `node_modules` in which a file
lies. -/
def NamesNodeModules (t : Text) (file : Path) : Prop :=
  ∃ dir : List Component, dir ++ [.normal "node_modules"] <+: (Path.mk t).components ∧
    (∀ c ∈ dir, ∀ a ∈ c.text, a ∉ ['*', '?', '[', '{']) ∧
    dir ++ [.normal "node_modules"] <+: file.components

/-- A walk passes by `node_modules` only if it begins in there. -/
theorem namesNodeModules_of_behind {t : Text} {file : Path} {behind : List Component}
    (hbehind : file.components = (baseOf t).components ++ behind)
    (hnode : Component.normal "node_modules" ∉ behind) (h : file.inNodeModules = true) :
    NamesNodeModules t file := by
  have hmem : Component.normal "node_modules" ∈ (baseOf t).components := by
    rw [inNodeModules, List.contains_iff_mem, hbehind] at h
    exact (List.mem_append.mp h).resolve_right hnode
  obtain ⟨dir, rest, hdir⟩ := List.append_of_mem hmem
  have hprefix : dir ++ [.normal "node_modules"] <+: (baseOf t).components :=
    ⟨rest, by rw [hdir, List.append_assoc]; rfl⟩
  refine ⟨dir, ?_, ?_, ?_⟩
  · rw [components_baseOf] at hprefix
    exact hprefix.trans (List.takeWhile_prefix _)
  · intro c hc a ha
    have hplain : isBare c = true := by
      refine List.mem_takeWhile_imp (l := (Path.mk t).components) ?_
      rw [← components_baseOf, hdir]
      exact List.mem_append_left _ hc
    rw [isBare, Bool.not_eq_true', List.any_eq_false] at hplain
    simpa [isGlobChar, and_assoc] using hplain a ha
  · exact hprefix.trans ⟨behind, hbehind.symm⟩

/-- The inputs of a project with globs come in order and once each.  They are the listed files
that exist and the files that are asked for outside of `node_modules`, wherever they lie.  Of
those in `node_modules`, there are none but below such a directory that a glob begins with. -/
theorem ofConfig_of_includes {d : Disk} (hmade : d.store.Made) (hlist : d.denials.list = [])
    {path : Path} (habs : path.isAbsolute = true) {c : TsConfig}
    (hc : TsConfig.read d.view path = .ok c) {ps : List Text} (hps : c.includes = some ps)
    (hback : ∀ t ∈ ps, '\\' ∉ t) {outDir : Option Path} {names : List Path}
    (h : ofConfig d.view c outDir = .ok names) :
    names.Pairwise (fun a b => a.cmp b = .lt) ∧
    (∀ file, Wanted d ps (c.excludes.getD []) outDir file → file.inNodeModules = false →
      file ∈ names) ∧
    (∀ file ∈ c.files.getD [], d.hasFile file = true → file ∈ names) ∧
    ∀ file ∈ names, (file ∈ c.files.getD [] ∧ d.hasFile file = true) ∨
      Wanted d ps (c.excludes.getD []) outDir file ∧
        (file.inNodeModules = false ∨ ∃ t ∈ ps, NamesNodeModules t file) := by
  have hsettled := TsConfig.isSettled_of_mem_includes habs hc hps
  have hpatterns : patterns c = ps := by rw [patterns, hps]
  have hmem := mem_ofConfig_iff hmade.inOrder hlist hc (hpatterns ▸ hsettled) h
  rw [hpatterns] at hmem
  refine ⟨rising_ofConfig h, fun file hwanted hnode => ?_, fun file hfile hexists => ?_,
    fun file hfile => ?_⟩
  · have hn := hmade.inOrder.normal file hwanted.stored
    obtain ⟨t, ht, behind, hbehind⟩ := exists_baseOf_of_matchedBy hn
      (fun t ht => ⟨hsettled t ht, hback t ht⟩) hwanted.included
    refine (hmem file).mpr (.inr ⟨hwanted, t, ht, behind, hbehind.symm, fun hin => ?_⟩)
    rw [inNodeModules, ← hbehind, ← Bool.not_eq_true, List.contains_iff_mem] at hnode
    exact hnode (List.mem_append_right _ hin)
  · exact (hmem file).mpr (.inl ⟨hfile, hexists⟩)
  · refine ((hmem file).mp hfile).imp_right ?_
    rintro ⟨hwanted, t, ht, behind, hbehind, hnode⟩
    refine ⟨hwanted, ?_⟩
    cases hin : file.inNodeModules with
    | false => exact .inl rfl
    | true => exact .inr ⟨t, ht, namesNodeModules_of_behind hbehind hnode hin⟩

/-! ## A project with overlapping globs -/

namespace Overlapping

/-- A project with a listed file and three globs, two of which begin in one directory and the
third in `node_modules`. -/
def disk : Disk where
  store := ([ ("/p/tsconfig.json",
      "\x7b\"files\":[\"gen.ts\"],\"include\":[\"src\",\"src/*.ts\",\"node_modules/q\"]\x7d"),
    ("/p/gen.ts", ""), ("/p/src/a.ts", ""), ("/p/src/node_modules/b.ts", ""),
    ("/p/node_modules/q/c.ts", "") ] : List (Text × Text)).foldl (fun s f => s.add ⟨f.1⟩ f.2) {}

def path : Path := Path.ofString "/p/tsconfig.json"

def globs : List Text := ["/p/src", "/p/src/*.ts", "/p/node_modules/q"]

def config : TsConfig where
  path := path
  includes := some globs
  files := some [Path.ofString "/p/gen.ts"]

def vendored : Path := Path.ofString "/p/node_modules/q/c.ts"

def names : List Path := [Path.ofString "/p/gen.ts", vendored, Path.ofString "/p/src/a.ts"]

theorem made : disk.store.Made := .add _ _ (.add _ _ (.add _ _ (.add _ _ (.add _ _ .empty))))

theorem wasRead : TsConfig.read disk.view path = .ok config := by decide +kernel

theorem inputs : ofConfig disk.view config none = .ok names := by decide +kernel

end Overlapping

open Overlapping in
theorem ofConfig_of_includes_overlapping : ofConfig disk.view config none = .ok names ∧
    names.Pairwise (fun a b => a.cmp b = .lt) ∧ ∃ t ∈ globs, NamesNodeModules t vendored := by
  obtain ⟨hrising, -, -, hback⟩ := ofConfig_of_includes made rfl (by decide) wasRead rfl
    (by decide +kernel) inputs
  refine ⟨inputs, hrising, ?_⟩
  rcases hback vendored (by decide +kernel) with ⟨hlisted, -⟩ | ⟨-, hnode | hnamed⟩
  · exact absurd hlisted (by decide +kernel)
  · exact absurd hnode (by decide +kernel)
  · exact hnamed

end InputFiles
end TestTransform

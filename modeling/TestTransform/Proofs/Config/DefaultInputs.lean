/-
The inputs of a project that lists neither files nor globs.

Such a project takes in all TypeScript files below its own directory, by a glob made of the name of
the directory.  This glob means what it should unless the name has a character of glob notation
in it, or the directory is the root, behind which the glob has a second slash.
-/
import TestTransform.Proofs.Config.Walks

namespace TestTransform
namespace InputFiles

open TestTransform.Path Glob

variable {c : TsConfig} {outDir : Option Path} {dir file : Path}

/-- If there are globs that can be read, it depends on those to exclude whether the inputs are
found. -/
theorem ofConfig_of_readAll (view : FileView) (outDir : Option Path) {includes : List Glob}
    (hne : patterns c ≠ []) (hincludes : readAll false (patterns c) = .ok includes) :
    (∀ e, readAll false (c.excludes.getD []) = .error e → ofConfig view c outDir = .error e) ∧
    ∀ excludes, readAll false (c.excludes.getD []) = .ok excludes →
      ∃ names, ofConfig view c outDir = .ok names := by
  cases hpatterns : patterns c with
  | nil => exact absurd hpatterns hne
  | cons t ts =>
    rw [hpatterns] at hincludes
    constructor
    · intro e he
      simp only [ofConfig, hpatterns, hincludes, he]
      rfl
    · intro excludes hexcludes
      simp only [ofConfig, hpatterns, hincludes, hexcludes]
      exact ⟨_, rfl⟩

/-- A text that goes on from that of a directory behind a slash is that of a path below the
directory, and a path below it has such a text. -/
theorem exists_ancestor_iff (hn : file.normalize = file) (hdir : dir.IsSettled)
    (hroot : dir.components ≠ [.root]) :
    (∃ q ∈ file.ancestors, ∃ v, q.text = dir.text ++ '/' :: v) ↔
      ∃ behind, behind ≠ [] ∧ file.components = dir.components ++ behind := by
  constructor
  · rintro ⟨q, hq, v, hv⟩
    have hmk : q = ⟨dir.text ++ '/' :: v⟩ := congrArg Path.mk hv
    obtain ⟨below, hcomponents⟩ : ∃ below, q.components = dir.components ++ below :=
      ⟨_, hmk ▸ components_append_slash hdir.absolute v⟩
    have habs : q.isAbsolute = true := by
      rw [components_of_isAbsolute hdir.absolute, List.cons_append] at hcomponents
      exact isAbsolute_of_components hcomponents
    obtain ⟨hsettled, rest, hrest⟩ := below_of_mem_ancestors hn hq habs
    refine ⟨below ++ rest, fun hnil => ?_, by rw [← hrest, hcomponents, List.append_assoc]⟩
    -- Behind the directory there is a slash at least, but no component could come of that alone.
    rw [(List.append_eq_nil_iff.mp hnil).1, List.append_nil] at hcomponents
    have heq := congrArg Path.text (eq_of_components_eq hsettled.normal hdir.normal hcomponents)
    rw [hv] at heq
    have hlength := congrArg List.length heq
    rw [List.length_append, List.length_cons] at hlength
    omega
  · rintro ⟨behind, hbehind, hcomponents⟩
    refine ⟨file, mem_ancestors_self file, ?_⟩
    obtain ⟨stack, hstack, rfl⟩ := hdir.exists_rooted
    rw [components_rooted hstack] at hroot hcomponents
    have hne : stack.reverse ≠ [] := fun hnil => hroot (by rw [hnil])
    rw [← ofComponents_components hn, hcomponents, List.cons_append,
      text_ofComponents_root hne hbehind]
    exact ⟨_, rfl⟩

theorem not_isGlobChar_of_isLiteral {a : Char} (h : IsLiteral a) : isGlobChar a = false := by
  simp only [IsLiteral, List.mem_cons, List.not_mem_nil, or_false, not_or] at h
  simp [isGlobChar, h]

/-- The glob for everything below a directory. -/
def everythingIn (dir : Path) : Text := dir.text ++ "/**/*"

theorem everythingIn_rooted {stack : List Component} (hne : stack ≠ []) :
    Path.mk (everythingIn (rooted stack)) =
      rooted (.normal ['*'] :: .normal ['*', '*'] :: stack) := by
  have htext : (rooted (.normal ['*'] :: .normal ['*', '*'] :: stack)).text =
      everythingIn (rooted stack) := by
    rw [text_rooted_cons _ (List.cons_ne_nil _ _), text_rooted_cons _ hne, everythingIn,
      List.append_assoc]
    rfl
  exact congrArg Path.mk htext.symm

theorem isSettled_everythingIn {stack : List Component} (h : IsRooted stack) (hne : stack ≠ []) :
    (Path.mk (everythingIn (rooted stack))).IsSettled := by
  rw [everythingIn_rooted hne]
  exact ((h.cons (by decide)).cons (by decide)).isSettled

theorem baseOf_everythingIn {stack : List Component} (h : IsRooted stack) (hne : stack ≠ [])
    (hliteral : ∀ a ∈ (rooted stack).text, IsLiteral a) :
    baseOf (everythingIn (rooted stack)) = rooted stack := by
  have hplain : ∀ c ∈ Component.root :: stack.reverse, isBare c = true := by
    intro c hc
    rcases List.mem_cons.mp hc with rfl | hc
    · decide
    · rw [isBare, Bool.not_eq_true', List.any_eq_false]
      intro a ha
      have hmem : a ∈ (rooted stack).text :=
        List.mem_cons_of_mem _ (Text.mem_join_of_mem (List.mem_map_of_mem hc) ha)
      exact Bool.eq_false_iff.mp (not_isGlobChar_of_isLiteral (hliteral a hmem))
  have hcomponents : (Path.mk (everythingIn (rooted stack))).components =
      (Component.root :: stack.reverse) ++ [.normal ['*', '*'], .normal ['*']] := by
    rw [everythingIn_rooted hne, components_rooted ((h.cons (by decide)).cons (by decide))]
    simp
  have htake : (Path.mk (everythingIn (rooted stack))).components.takeWhile isBare =
      .root :: stack.reverse := by
    rw [hcomponents, List.takeWhile_append_of_pos hplain]
    exact List.append_nil _
  exact congrArg ofComponents htake

/-! ## Files that are taken in -/

/-- Whether a file is one that a project without lists takes in: it is there, is an input by its
extension, lies below the directory and not in `node_modules` or below the output directory, and
is matched by nothing that is excluded. -/
structure TakenIn (d : Disk) (dir : Path) (excludes : List Text) (outDir : Option Path)
    (file : Path) : Prop where
  stored : file ∈ d.store.paths
  input : ∃ ext ∈ (["ts", "tsx", "mts", "cts"] : List Text), file.extension? = some ext
  inside : ∃ behind, behind ≠ [] ∧ file.components = dir.components ++ behind ∧
    Component.normal "node_modules" ∉ behind
  outside : ∀ out ∈ outDir, ¬ out.components <+: file.components
  kept : ¬ MatchedBy excludes file

theorem matchedBy_everythingIn (hn : file.normalize = file) (hdir : dir.IsSettled)
    (hroot : dir.components ≠ [.root]) (hliteral : ∀ a ∈ dir.text, IsLiteral a) :
    MatchedBy [everythingIn dir] file ↔
      ∃ behind, behind ≠ [] ∧ file.components = dir.components ++ behind := by
  obtain ⟨g, hg, hmatch⟩ := exists_everything hliteral
  rw [← exists_ancestor_iff hn hdir hroot, MatchedBy]
  constructor
  · rintro ⟨t, ht, q, hq, g', hg', hq'⟩
    obtain rfl := List.mem_singleton.mp ht
    obtain rfl := hg.unique hg'
    exact ⟨q, hq, (hmatch q.text).mp hq'⟩
  · rintro ⟨q, hq, hv⟩
    exact ⟨_, List.mem_singleton_self _, q, hq, g, hg, (hmatch q.text).mpr hv⟩

theorem comesUp_everythingIn (hdir : dir.IsSettled) (hroot : dir.components ≠ [.root])
    (hliteral : ∀ a ∈ dir.text, IsLiteral a) :
    ComesUp [everythingIn dir] file ↔ ∃ behind, file.components = dir.components ++ behind ∧
      Component.normal "node_modules" ∉ behind := by
  obtain ⟨stack, hstack, rfl⟩ := hdir.exists_rooted
  have hne : stack ≠ [] := by
    rintro rfl
    exact hroot rfl
  simp only [ComesUp, List.mem_singleton, exists_eq_left, baseOf_everythingIn hstack hne hliteral]

/-- The files that the glob asks for and that come up on its walk are the ones to take in. -/
theorem takenIn_iff {d : Disk} (hd : d.store.InOrder) {excludes : List Text} (hdir : dir.IsSettled)
    (hroot : dir.components ≠ [.root]) (hliteral : ∀ a ∈ dir.text, IsLiteral a) :
    Wanted d [everythingIn dir] excludes outDir file ∧ ComesUp [everythingIn dir] file ↔
      TakenIn d dir excludes outDir file := by
  rw [comesUp_everythingIn hdir hroot hliteral]
  constructor
  · rintro ⟨h, behind, hbehind, hnode⟩
    have hn := hd.normal file h.stored
    obtain ⟨behind', hne, hbehind'⟩ := (matchedBy_everythingIn hn hdir hroot hliteral).mp h.included
    obtain rfl := List.append_cancel_left (hbehind.symm.trans hbehind')
    exact ⟨h.stored, h.input, ⟨behind, hne, hbehind, hnode⟩, h.outside, h.kept⟩
  · intro h
    have hn := hd.normal file h.stored
    obtain ⟨behind, hne, hbehind, hnode⟩ := h.inside
    have hincluded := (matchedBy_everythingIn hn hdir hroot hliteral).mpr ⟨behind, hne, hbehind⟩
    exact ⟨⟨h.stored, h.input, h.outside, hincluded, h.kept⟩, behind, hbehind, hnode⟩

end InputFiles

/-! ## Configurations without lists -/

namespace TsConfig

theorem lastOf_eq_none {α : Type} {part : Layer → Option α} {layers : List Layer}
    (h : ∀ l ∈ layers, part l = none) : lastOf part layers = none :=
  List.findSome?_eq_none_iff.mpr fun l hl => h l (List.mem_reverse.mp hl)

/-- A configuration lists nothing if no file lists anything that it stands for. -/
theorem lists_of_read {view : FileView} {path : Path} {c : TsConfig}
    (h : read view path = .ok c) {layers : List Layer}
    (hchain : Chain view path.normalize layers)
    (hnone : ∀ l ∈ layers, l.written.files = none ∧ l.written.includes = none) :
    c.files = none ∧ c.includes = none := by
  obtain ⟨layers', hchain', hmerges⟩ := readsChain_of_read h
  obtain rfl := hchain.unique hchain'
  rw [hmerges.files, hmerges.includes]
  constructor
  · refine lastOf_eq_none fun l hl => ?_
    rw [Layer.files, (hnone l hl).1]
    rfl
  · refine lastOf_eq_none fun l hl => ?_
    rw [Layer.includes, (hnone l hl).2]
    rfl

end TsConfig

namespace InputFiles

open TestTransform.Path Glob

/-- A project of which no file lists files or globs takes in what lies below its directory, in
order, if this is not the root and there is no glob notation in its name. -/
theorem ofConfig_without_lists {d : Disk} (hmade : d.store.Made) (hlist : d.denials.list = [])
    {path : Path} (habs : path.isAbsolute = true) {c : TsConfig}
    (hc : TsConfig.read d.view path = .ok c) {layers : List TsConfig.Layer}
    (hchain : TsConfig.Chain d.view path.normalize layers)
    (hnone : ∀ l ∈ layers, l.written.files = none ∧ l.written.includes = none)
    {dir : Path} (hdir : TsConfig.dirOf path.normalize = dir) (hroot : dir.components ≠ [.root])
    (hliteral : ∀ a ∈ dir.text, IsLiteral a) (outDir : Option Path) :
    (∀ e, readAll false (c.excludes.getD []) = .error e → ofConfig d.view c outDir = .error e) ∧
    ∀ excludes, readAll false (c.excludes.getD []) = .ok excludes → ∃ names,
      ofConfig d.view c outDir = .ok names ∧ names.Pairwise (fun a b => a.cmp b = .lt) ∧
      ∀ file, file ∈ names ↔ TakenIn d dir (c.excludes.getD []) outDir file := by
  obtain ⟨hfiles, hincludes⟩ := TsConfig.lists_of_read hc hchain hnone
  have hsettled : dir.IsSettled := hdir ▸ TsConfig.isSettled_dirOf (isSettled_normalize habs)
  have hpatterns : patterns c = [everythingIn dir] := by
    rw [patterns, hincludes, hfiles, TsConfig.path_of_read hc, hdir, everythingIn]
  obtain ⟨g, hg, -⟩ := exists_everything hliteral
  have hread : readAll false (patterns c) = .ok [g] :=
    readAll_eq_ok.mpr (hpatterns ▸ .cons hg .nil)
  have hne : patterns c ≠ [] := hpatterns ▸ List.cons_ne_nil _ _
  obtain ⟨herror, hok⟩ := ofConfig_of_readAll d.view outDir hne hread
  refine ⟨herror, fun excludes hexcludes => ?_⟩
  obtain ⟨names, hnames⟩ := hok excludes hexcludes
  refine ⟨names, hnames, rising_ofConfig hnames, fun file => ?_⟩
  have hglobs : ∀ t ∈ patterns c, (Path.mk t).IsSettled := by
    obtain ⟨stack, hstack, rfl⟩ := hsettled.exists_rooted
    intro t ht
    rw [hpatterns] at ht
    obtain rfl := List.mem_singleton.mp ht
    refine isSettled_everythingIn hstack ?_
    rintro rfl
    exact hroot rfl
  rw [mem_ofConfig_iff hmade.inOrder hlist hc hglobs hnames, hfiles, hpatterns,
    takenIn_iff hmade.inOrder hsettled hroot hliteral]
  exact or_iff_right fun h => List.not_mem_nil h.1

/-! ## A project that extends another file -/

namespace Inheriting

/-- A project that leaves out its directory `gen` and extends a file that says nothing. -/
def disk : Disk where
  store := ([ ("/p/tsconfig.json", "\x7b\"extends\":\"./base\",\"exclude\":[\"gen\"]\x7d"),
    ("/p/base.json", "\x7b\x7d"), ("/p/src/b.ts", ""), ("/p/gen/a.ts", ""),
    ("/p/node_modules/c.ts", "") ] : List (Text × Text)).foldl (fun s f => s.add ⟨f.1⟩ f.2) {}

def path : Path := Path.ofString "/p/tsconfig.json"

def dir : Path := ⟨['/', 'p']⟩

def base : Path := Path.ofString "/p/base.json"

def excluding : TsConfig.Written where
  bases := ["./base"]
  excludes := some ["gen"]

def config : TsConfig where
  path := path
  excludes := some ["/p/gen"]

def kept : Path := Path.ofString "/p/src/b.ts"

def generated : Path := Path.ofString "/p/gen/a.ts"

theorem made : disk.store.Made := .add _ _ (.add _ _ (.add _ _ (.add _ _ (.add _ _ .empty))))

theorem wasRead : TsConfig.read disk.view path = .ok config ∧
    ofConfig disk.view config none = .ok [kept] := by
  decide +kernel

theorem chain : TsConfig.Chain disk.view path.normalize [⟨base, {}⟩, ⟨path, excluding⟩] := by
  have hnormal : path.normalize = path := by decide
  have hbase : TsConfig.Chain disk.view base ([] ++ [⟨base, {}⟩]) :=
    .intro (by decide +kernel) .nil
  have hbases : TsConfig.Bases disk.view (TsConfig.dirOf path) ["./base"]
      ([] ++ [⟨base, {}⟩] ++ []) := .cons (by decide +kernel) hbase .nil
  have hpath : TsConfig.Chain disk.view path ([] ++ [⟨base, {}⟩] ++ [] ++ [⟨path, excluding⟩]) :=
    .intro (by decide +kernel) hbases
  rw [hnormal]
  exact hpath

end Inheriting

open Inheriting in
theorem ofConfig_without_lists_extending : ofConfig disk.view config none = .ok [kept] ∧
    TakenIn disk dir ["/p/gen"] none kept ∧ ¬ TakenIn disk dir ["/p/gen"] none generated := by
  have hdir : TsConfig.dirOf path.normalize = dir := by decide
  have hliteral : ∀ a ∈ dir.text, IsLiteral a :=
    List.forall_mem_cons.mpr ⟨by decide, List.forall_mem_singleton.mpr (by decide)⟩
  have hpattern : ("/p/**/*" : Text) ∈ patterns config := by decide +kernel
  obtain ⟨hread, inputs⟩ := wasRead
  obtain ⟨-, hok⟩ := ofConfig_without_lists made rfl (by decide) hread chain (by decide) hdir
    (by decide) hliteral none
  obtain ⟨-, excludes, -, hexcludes⟩ := globs_of_ofConfig inputs hpattern
  obtain ⟨names, hnames, -, hmem⟩ := hok excludes hexcludes
  obtain rfl := Except.ok.inj (hnames.symm.trans inputs)
  refine ⟨inputs, (hmem kept).mp (List.mem_singleton_self kept), fun h => ?_⟩
  exact absurd ((hmem generated).mpr h) (by decide +kernel)

/-! ## A project at the root -/

namespace AtRoot

/-- A project in the root directory that says nothing. -/
def disk : Disk where
  store := ([ ("/tsconfig.json", "\x7b\x7d"), ("/a.ts", "") ] : List (Text × Text)).foldl
    (fun s f => s.add ⟨f.1⟩ f.2) {}

def path : Path := Path.ofString "/tsconfig.json"

def config : TsConfig where
  path := path

def beside : Path := Path.ofString "/a.ts"

theorem made : disk.store.Made := .add _ _ (.add _ _ .empty)

theorem wasRead : TsConfig.read disk.view path = .ok config ∧
    ofConfig disk.view config none = .ok [] := by
  decide +kernel

theorem chain : TsConfig.Chain disk.view path.normalize [⟨path, {}⟩] := by
  have hnormal : path.normalize = path := by decide
  have hpath : TsConfig.Chain disk.view path ([] ++ [⟨path, {}⟩]) :=
    .intro (by decide +kernel) .nil
  rw [hnormal]
  exact hpath

theorem takenIn_beside : TakenIn disk (TsConfig.dirOf path.normalize) [] none beside where
  stored := by decide
  input := ⟨"ts", by decide, by decide⟩
  inside := ⟨[.normal "a.ts"], by decide, by decide, by decide⟩
  outside := nofun
  kept := fun ⟨_, hmem, _⟩ => absurd hmem List.not_mem_nil

end AtRoot

open AtRoot in
/-- In the root directory nothing is found, since the glob begins with two slashes. -/
theorem not_always_taken_in : ¬ ∀ (d : Disk) (path : Path) (c : TsConfig)
    (layers : List TsConfig.Layer) (outDir : Option Path) (names : List Path), d.store.Made →
    d.denials.list = [] → path.isAbsolute = true → TsConfig.read d.view path = .ok c →
    TsConfig.Chain d.view path.normalize layers →
    (∀ l ∈ layers, l.written.files = none ∧ l.written.includes = none) →
    ofConfig d.view c outDir = .ok names →
    ∀ file, file ∈ names ↔
      TakenIn d (TsConfig.dirOf path.normalize) (c.excludes.getD []) outDir file := by
  intro h
  obtain ⟨hread, inputs⟩ := wasRead
  have hmem := h disk path config _ none [] made rfl (by decide) hread chain (by decide) inputs
  exact List.not_mem_nil ((hmem beside).mpr takenIn_beside)

end InputFiles
end TestTransform

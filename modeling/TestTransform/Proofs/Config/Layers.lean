/-
What a configuration file says together with the files that it extends.

The files are put in an order in which each comes after all that it extends, and those that a
file extends come in the order in which it names them.  Merging them from the bottom up gives
each option the value that the last file gives it that declares the option, however the files
extend each other, and lists of files and globs are taken from the last file in the same way.
-/
import TestTransform.Proofs.Config.Reading

namespace TestTransform
namespace TsConfig

/-! ## Files in their order -/

/-- A configuration file and what is written in it. -/
structure Layer where
  path : Path
  written : Written
  deriving DecidableEq

mutual

/-- The files that a configuration file stands for: all that it extends, and then the file
itself. -/
inductive Chain (view : FileView) : Path → List Layer → Prop where
  | intro {path : Path} {w : Written} {below : List Layer} : readWritten view path = .ok w →
      Bases view (dirOf path) w.bases below → Chain view path (below ++ [⟨path, w⟩])

/-- The files that the extended names in a directory stand for, one after another. -/
inductive Bases (view : FileView) : Path → List Text → List Layer → Prop where
  | nil {dir : Path} : Bases view dir [] []
  | cons {dir path : Path} {name : Text} {names : List Text} {layers rest : List Layer} :
      resolveBase view dir name = .ok path → Chain view path layers →
      Bases view dir names rest → Bases view dir (name :: names) (layers ++ rest)

end

mutual

/-- A file stands for one list of files only. -/
theorem Chain.unique {view : FileView} : ∀ {path : Path} {layers layers' : List Layer},
    Chain view path layers → Chain view path layers' → layers = layers'
  | _, _, _, .intro hread hbases, .intro hread' hbases' => by
    rw [hread] at hread'
    cases hread'
    rw [Bases.unique hbases hbases']

theorem Bases.unique {view : FileView} : ∀ {dir : Path} {names : List Text}
    {layers layers' : List Layer}, Bases view dir names layers → Bases view dir names layers' →
      layers = layers'
  | _, _, _, _, .nil, .nil => rfl
  | _, _, _, _, .cons hbase hchain hrest, .cons hbase' hchain' hrest' => by
    rw [hbase] at hbase'
    cases hbase'
    rw [Chain.unique hchain hchain', Bases.unique hrest hrest']

end

/-! ## What a file says -/

/-- Whether an option holds a path. -/
def holdsPath (name : Text) : Bool :=
  (["outDir", "rootDir", "baseUrl", "declarationDir", "tsBuildInfoFile"] : List Text).contains name

/-- The value of an option that is declared in a directory, against which a path is
resolved. -/
def valueIn (dir : Path) (name : Text) : Json → Json
  | .str t => .str (if holdsPath name then (dir.resolve ⟨t⟩).text else t)
  | j => j

/-- The value that options written in a directory give to an option. -/
def optionIn? (dir : Path) (name : Text) (options : Json.Fields) : Option Json :=
  (Json.field? name options).map (valueIn dir name)

namespace Layer

def dir (l : Layer) : Path := dirOf l.path

/-- What a file says of an option; `null` counts as well. -/
def option? (name : Text) (l : Layer) : Option Json :=
  optionIn? l.dir name l.written.compilerOptions

/-- The globs of a file, if it has any list of them. -/
def includes (l : Layer) : Option (List Text) :=
  l.written.includes.map fun ps => ps.map fun t => (l.dir.resolve ⟨t⟩).text

def excludes (l : Layer) : Option (List Text) :=
  l.written.excludes.map fun ps => ps.map fun t => (l.dir.resolve ⟨t⟩).text

def files (l : Layer) : Option (List Path) :=
  l.written.files.map fun ps => ps.map fun t => l.dir.resolve ⟨t⟩

end Layer

/-- What the last file says of all that say anything. -/
def lastOf {α : Type} (part : Layer → Option α) (layers : List Layer) : Option α :=
  layers.reverse.findSome? part

/-- Whether a configuration holds what the last files in a list say. -/
structure Merges (c : TsConfig) (layers : List Layer) : Prop where
  options : ∀ name, Json.field? name c.compilerOptions = lastOf (Layer.option? name) layers
  includes : c.includes = lastOf Layer.includes layers
  excludes : c.excludes = lastOf Layer.excludes layers
  files : c.files = lastOf Layer.files layers

theorem lastOf_append {α : Type} (part : Layer → Option α) (layers layers' : List Layer) :
    lastOf part (layers ++ layers') = (lastOf part layers').or (lastOf part layers) := by
  rw [lastOf, List.reverse_append, List.findSome?_append]
  rfl

theorem lastOf_singleton {α : Type} (part : Layer → Option α) (l : Layer) :
    lastOf part [l] = part l := by
  rw [lastOf, List.reverse_singleton, List.findSome?_singleton]

theorem merges_empty : Merges {} [] := ⟨fun _ => rfl, rfl, rfl, rfl⟩

/-! ## One file -/

theorem contains_pathOptions (name : Text) : pathOptions.contains name = holdsPath name := rfl

theorem valueIn_of_holdsPath {dir : Path} {name : Text} (h : holdsPath name = true) :
    valueIn dir name = resolveValue dir := by
  funext j
  cases j with
  | str t => simp only [valueIn, resolveValue, h, if_true]
  | null | bool | num | arr | obj => rfl

theorem valueIn_of_not_holdsPath {dir : Path} {name : Text} (h : holdsPath name = false) :
    valueIn dir name = id := by
  funext j
  cases j with
  | str t => simp only [valueIn, h, Bool.false_eq_true, if_false, id_eq]
  | null | bool | num | arr | obj => rfl

theorem field?_modify (name name' : Text) (change : Json → Json) (options : Json.Fields) :
    Json.field? name (Assoc.modify Text.cmp name' change options) =
      (Json.field? name options).map (if name' = name then change else id) := by
  rw [Json.field?, Assoc.find?_modify]
  by_cases h : name' = name
  · subst h
    have hself : Text.cmp name' name' = .eq := Std.ReflCmp.compare_self
    simp only [hself, if_true]
    rfl
  · have hne : Text.cmp name' name ≠ .eq := fun heq => h (Std.LawfulEqCmp.eq_of_compare heq)
    simp only [hne, h, if_false]
    rfl

/-- Each option that holds a path is resolved once, since no name is listed twice. -/
theorem field?_foldl_modify {names : List Text} (hnames : names.Nodup) (dir : Path) (name : Text)
    (options : Json.Fields) :
    Json.field? name
        (names.foldl (fun o n => Assoc.modify Text.cmp n (resolveValue dir) o) options) =
      (Json.field? name options).map (if names.contains name then resolveValue dir else id) := by
  induction names generalizing options with
  | nil => simp
  | cons n names ih =>
    obtain ⟨hn, hrest⟩ := List.nodup_cons.mp hnames
    rw [List.foldl_cons, ih hrest, field?_modify, Option.map_map]
    by_cases h : n = name
    · subst h
      rw [if_neg (by simpa using hn), if_pos rfl, if_pos (by simp), Function.id_comp]
    · have hcons : (n :: names).contains name = names.contains name := by
        rw [List.contains_cons, beq_eq_false_iff_ne.mpr (Ne.symm h), Bool.false_or]
      rw [if_neg h, hcons, Function.comp_id]

theorem field?_resolvePathOptions (options : Json.Fields) (dir : Path) (name : Text) :
    Json.field? name (resolvePathOptions options dir) = optionIn? dir name options := by
  rw [resolvePathOptions, field?_foldl_modify (by decide), contains_pathOptions, optionIn?]
  cases h : holdsPath name with
  | true => rw [valueIn_of_holdsPath h, if_pos rfl]
  | false => rw [valueIn_of_not_holdsPath h, if_neg Bool.false_ne_true]

theorem merges_ofWritten (view : FileView) (path : Path) (w : Written) :
    Merges (ofWritten view path w) [⟨path, w⟩] := by
  constructor
  · intro name
    rw [lastOf_singleton]
    exact field?_resolvePathOptions w.compilerOptions (dirOf path) name
  · rw [lastOf_singleton, Layer.includes, ofWritten]
    simp only [resolveAll, List.map_map]
    rfl
  · rw [lastOf_singleton, Layer.excludes, ofWritten]
    simp only [resolveAll, List.map_map]
    rfl
  · rw [lastOf_singleton]
    rfl

/-! ## One file over others -/

theorem Merges.onTopOf {above below : TsConfig} {layers layers' : List Layer}
    (ha : Merges above layers') (hb : Merges below layers) (hproper : above.IsProper) :
    Merges (above.onTopOf below) (layers ++ layers') := by
  have hdistinct : above.compilerOptions.Pairwise fun a b => Text.cmp a.1 b.1 ≠ .eq :=
    (Json.isProper_obj.mp hproper).1.distinct
  constructor
  · intro name
    rw [lastOf_append, ← ha.options, ← hb.options]
    exact Assoc.find?_insertAll_of_distinct hdistinct name below.compilerOptions
  · rw [lastOf_append, ← ha.includes, ← hb.includes]
    exact Option.orElse_eq_or
  · rw [lastOf_append, ← ha.excludes, ← hb.excludes]
    exact Option.orElse_eq_or
  · rw [lastOf_append, ← ha.files, ← hb.files]
    exact Option.orElse_eq_or

/-! ## Whole chains -/

/-- Whether a configuration is what its files say, in their order. -/
def ReadsChain (view : FileView) (path : Path) (c : TsConfig) : Prop :=
  ∃ layers, Chain view path layers ∧ Merges c layers

theorem bases_of_readBases {view : FileView} {read : Reader}
    (hread : ∀ visited path c visited', read visited path = .ok (c, visited') →
      c.IsProper ∧ ReadsChain view path c)
    {dir : Path} {names : List Text} {below c : TsConfig} {visited visited' : List Path}
    {layers : List Layer} (hbelow : Merges below layers)
    (h : readBases view read dir names below visited = .ok (c, visited')) :
    ∃ rest, Bases view dir names rest ∧ Merges c (layers ++ rest) := by
  induction names generalizing below visited layers with
  | nil =>
    cases h
    exact ⟨[], .nil, by rwa [List.append_nil]⟩
  | cons name names ih =>
    simp only [readBases, Except.bind_eq_ok] at h
    obtain ⟨path, hpath, ⟨base, visited₁⟩, hbase, h⟩ := h
    obtain ⟨hproper, own, hchain, hmerges⟩ := hread _ _ _ _ hbase
    obtain ⟨rest, hrest, hc⟩ := ih (hmerges.onTopOf hbelow hproper) h
    exact ⟨own ++ rest, .cons hpath hchain hrest, by rwa [← List.append_assoc]⟩

theorem readsChain_of_readChain {view : FileView} {fuel : Nat} {visited visited' : List Path}
    {path : Path} {c : TsConfig} (h : readChain view fuel visited path = .ok (c, visited')) :
    ReadsChain view path c := by
  induction fuel generalizing visited path c visited' with
  | zero => cases h
  | succ fuel ih =>
    rw [readChain] at h
    split at h
    · cases h
    · simp only [Except.bind_eq_ok] at h
      obtain ⟨w, hw, ⟨below, visited₁⟩, hbelow, h⟩ := h
      cases h
      obtain ⟨layers, hbases, hmerges⟩ := bases_of_readBases
        (fun _ _ _ _ h => ⟨isProper_readChain h, ih h⟩) merges_empty hbelow
      have hown : (ofWritten view path w).IsProper :=
        isProper_resolvePathOptions (isProper_readWritten hw) _
      exact ⟨layers ++ [⟨path, w⟩], .intro hw hbases,
        (merges_ofWritten view path w).onTopOf hmerges hown⟩

/-- A configuration that is read holds what its files say last. -/
theorem readsChain_of_read {view : FileView} {path : Path} {c : TsConfig}
    (h : read view path = .ok c) : ReadsChain view path.normalize c := by
  rw [read] at h
  cases hchain : readChain view (view.count + 2) [] path.normalize with
  | error e =>
    rw [hchain] at h
    cases h
  | ok found =>
    obtain ⟨c', visited⟩ := found
    rw [hchain] at h
    cases h
    exact readsChain_of_readChain hchain

end TsConfig
end TestTransform

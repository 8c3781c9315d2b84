/-
What the versions of a host tell.

An engine compares versions and nothing else to decide what it has to work out again, so
what has changed must show in them.  Between two moments of a host's life the project's
state has the same number only if the options and the names of the program's files are the
same and every file known before has its text; and a file has the same version only if it
has the same text.  Reading an input file is the case to watch: it adds a file to the table
and leaves the number as it is.
-/
import TestTransform.Files.Known
import TestTransform.Proofs.Compiler.Table
import TestTransform.Proofs.Order.Rising

namespace TestTransform

/-! ## The table under updates -/

namespace FileTable

variable {t : FileTable} {p q : Path} {r r' : FileRecord} {text : Text}

/-- The file after an update of it: a new record, the old one, or one of the next version. -/
theorem get?_update_self (t : FileTable) (p : Path) (text : Text) :
    ∃ r', (t.update p text).2.get? p = some r' ∧ r'.text = text ∧
      ((t.get? p = none ∧ r'.version = 1) ∨
        ∃ r, t.get? p = some r ∧ ((r' = r ∧ r.text = text) ∨
          (r.text ≠ text ∧ r'.version = r.version + 1))) := by
  cases h : t.get? p with
  | none =>
    refine ⟨{ text, version := 1 }, ?_, rfl, .inl ⟨rfl, rfl⟩⟩
    simp [update, h, get?_put, Path.same_refl]
  | some r =>
    by_cases hr : r.text = text
    · refine ⟨r, ?_, hr, .inr ⟨r, rfl, .inl ⟨rfl, hr⟩⟩⟩
      simp [update, h, hr]
    · refine ⟨{ text, version := r.version + 1 }, ?_, rfl, .inr ⟨r, rfl, .inr ⟨hr, rfl⟩⟩⟩
      simp [update, h, hr, get?_put, Path.same_refl]

theorem get?_update_of_ne (t : FileTable) (text : Text) (h : ¬ q.same p = true) :
    (t.update p text).2.get? q = t.get? q := by
  rcases update_cases t p text with ⟨-, hu⟩ | ⟨-, u, version, -, hu⟩
  · rw [hu]
  · rw [hu, get?_put, if_neg h]

/-- A table in order, in which every file has a version from 1 on. -/
structure Ordered (t : FileTable) : Prop where
  rising : Assoc.Rising Path.cmp t.records
  counted : ∀ p r, t.get? p = some r → 1 ≤ r.version

theorem ordered_empty : Ordered {} where
  rising := Assoc.rising_nil
  counted _ _ h := by cases h

theorem Ordered.update (h : t.Ordered) (p : Path) (text : Text) : (t.update p text).2.Ordered := by
  constructor
  · rcases update_cases t p text with ⟨-, hu⟩ | ⟨-, u, version, -, hu⟩
    · rw [hu]
      exact h.rising
    · rw [hu]
      exact h.rising.insert p _
  · intro q r hq
    by_cases hqp : q.same p = true
    · obtain ⟨r', hr', -, hcase⟩ := get?_update_self t p text
      rw [get?_congr hqp, hr'] at hq
      cases hq
      rcases hcase with ⟨-, hv⟩ | ⟨r₀, hr₀, ⟨rfl, -⟩ | ⟨-, hv⟩⟩
      · omega
      · exact h.counted p r hr₀
      · omega
    · rw [get?_update_of_ne t text hqp] at hq
      exact h.counted q r hq

/-- The paths of a table rise. -/
theorem Ordered.paths (h : t.Ordered) : t.paths.Pairwise fun a b => a.cmp b = .lt :=
  List.pairwise_map.mpr h.rising

end FileTable

namespace ServiceHost

variable {h h' h'' : ServiceHost} {p q file : Path}

/-! ## Operations -/

/-- What is done to a host.  Every read may find other files on disk. -/
inductive Operation where
  | updateFile (p : Path) (text : Text)
  | setOptions (o : CompilerOptions)
  | snapshot (view : FileView) (file : Path)

def perform (h : ServiceHost) : Operation → ServiceHost
  | .updateFile p text => (h.updateFile p text).2
  | .setOptions o => h.setOptions o
  | .snapshot view file => (h.snapshot view file).2

/-- A host after one operation upon the other. -/
def run (h : ServiceHost) (operations : List Operation) : ServiceHost := operations.foldl perform h

theorem run_append (h : ServiceHost) (a b : List Operation) : h.run (a ++ b) = (h.run a).run b :=
  List.foldl_append

/-! ## Earlier and later -/

/-- One moment of a host's life follows another.  The number of the project's state stands
for the options, for the texts of the known files and for the names of the program's files:
what became known while it stood still was one of the input files. -/
structure Follows (h h' : ServiceHost) : Prop where
  rootFiles : h'.rootFiles = h.rootFiles
  version : h.projectVersion ≤ h'.projectVersion
  options : h.projectVersion = h'.projectVersion → h'.options = h.options
  kept : ∀ p r, h.files.get? p = some r → ∃ r', h'.files.get? p = some r' ∧
    r.version ≤ r'.version ∧ (r.version = r'.version → r'.text = r.text) ∧
      (h.projectVersion = h'.projectVersion → r'.text = r.text)
  new : h.projectVersion = h'.projectVersion → ∀ p, h'.files.contains p = true →
    h.files.contains p = true ∨ h.isRoot p = true

namespace Follows

theorem refl (h : ServiceHost) : Follows h h where
  rootFiles := rfl
  version := Nat.le_refl _
  options _ := rfl
  kept _ r hr := ⟨r, hr, Nat.le_refl _, fun _ => rfl, fun _ => rfl⟩
  new _ _ hp := .inl hp

theorem isRoot (a : Follows h h') (p : Path) : h'.isRoot p = h.isRoot p := by
  rw [ServiceHost.isRoot, a.rootFiles, ServiceHost.isRoot]

theorem trans (a : Follows h h') (b : Follows h' h'') : Follows h h'' := by
  -- Numbers never fall, so where the ends are equal the middle is as well.
  have hle := a.version
  have hle' := b.version
  refine ⟨b.rootFiles.trans a.rootFiles, Nat.le_trans hle hle', ?_, ?_, ?_⟩
  · intro hv
    exact (b.options (by omega)).trans (a.options (by omega))
  · intro p r hr
    obtain ⟨r', hr', hrv, htext, hproject⟩ := a.kept p r hr
    obtain ⟨r'', hr'', hrv', htext', hproject'⟩ := b.kept p r' hr'
    refine ⟨r'', hr'', Nat.le_trans hrv hrv', ?_, ?_⟩
    · intro hv
      exact (htext' (by omega)).trans (htext (by omega))
    · intro hv
      exact (hproject' (by omega)).trans (hproject (by omega))
  · intro hv p hp
    rcases b.new (by omega) p hp with hp | hp
    · exact a.new (by omega) p hp
    · exact .inr (by rwa [← a.isRoot p])

end Follows

/-! ## One operation -/

/-- Putting a text into the table: it may not be news unless the project's state moves on
or the file is an unread input file. -/
theorem follows_update {n : Nat} {text : Text} (hn : h.projectVersion ≤ n)
    (hnew : n = h.projectVersion → h.files.text? p = some text ∨
      (h.files.get? p = none ∧ h.isRoot p = true)) :
    Follows h { h with files := (h.files.update p text).2, projectVersion := n } := by
  obtain ⟨r', hr', htext, hcase⟩ := FileTable.get?_update_self h.files p text
  refine ⟨rfl, hn, fun _ => rfl, ?_, ?_⟩
  · intro q r hr
    by_cases hqp : q.same p = true
    · rw [FileTable.get?_congr hqp] at hr ⊢
      rcases hcase with ⟨hnone, -⟩ | ⟨r₀, hr₀, hcase⟩
      · rw [hr] at hnone
        cases hnone
      · rw [hr] at hr₀
        cases hr₀
        rcases hcase with ⟨rfl, -⟩ | ⟨hne, hv⟩
        · exact ⟨r', hr', Nat.le_refl _, fun _ => rfl, fun _ => rfl⟩
        · refine ⟨r', hr', by omega, fun heq => by omega, ?_⟩
          intro heq
          rcases hnew heq.symm with hheld | ⟨hnone, -⟩
          · rw [FileTable.text?, hr] at hheld
            exact absurd (Option.some.inj hheld) hne
          · rw [hr] at hnone
            cases hnone
    · exact ⟨r, by rw [FileTable.get?_update_of_ne h.files text hqp, hr], Nat.le_refl _,
        fun _ => rfl, fun _ => rfl⟩
  · intro heq q hq
    by_cases hqp : q.same p = true
    · rcases hnew heq.symm with hheld | ⟨-, hroot⟩
      · left
        rw [FileTable.contains_eq_text?, FileTable.text?_congr hqp, hheld]
        rfl
      · right
        obtain ⟨root, hmem, hsame⟩ := List.any_eq_true.mp hroot
        refine List.any_eq_true.mpr ⟨root, hmem, ?_⟩
        rw [Path.same_iff] at hqp hsame ⊢
        exact hqp.trans hsame
    · left
      rw [FileTable.contains] at hq ⊢
      rwa [FileTable.get?_update_of_ne h.files text hqp] at hq

theorem follows_updateFile (h : ServiceHost) (p : Path) (text : Text) :
    Follows h (h.updateFile p text).2 := by
  rcases updateFile_cases h p text with ⟨-, hu⟩ | ⟨hne, version, hu⟩
  · rw [hu]
    exact Follows.refl h
  · have hversion : (h.updateFile p text).2.projectVersion = h.projectVersion + 1 := by rw [hu]
    show Follows h { h with files := (h.files.update p text).2
                            projectVersion := (h.updateFile p text).2.projectVersion }
    exact follows_update (by omega) (fun heq => by omega)

theorem follows_setOptions (h : ServiceHost) (o : CompilerOptions) :
    Follows h (h.setOptions o) := by
  rw [setOptions]
  split
  · exact Follows.refl h
  · refine ⟨rfl, Nat.le_succ _, ?_, ?_, ?_⟩
    · intro heq
      simp at heq
    · intro p r hr
      exact ⟨r, hr, Nat.le_refl _, fun _ => rfl, fun _ => rfl⟩
    · intro _ p hp
      exact .inl hp

/-- A snapshot does nothing, takes an input file in, or takes another file in as an update. -/
theorem snapshot_cases (h : ServiceHost) (view : FileView) (file : Path) :
    (h.snapshot view file).2 = h ∨
      (h.files.get? file.normalize = none ∧ ∃ text,
        (h.isRoot file.normalize = true ∧ (h.snapshot view file).2 =
          { h with files := (h.files.update file.normalize text).2 }) ∨
        (h.snapshot view file).2 = (h.updateFile file.normalize text).2) := by
  cases ht : h.files.text? file.normalize with
  | some t =>
    left
    simp [snapshot, ht]
  | none =>
    cases hd : view.read? file.normalize with
    | none =>
      left
      simp [snapshot, ht, hd]
    | some t =>
      right
      refine ⟨by simpa [FileTable.text?] using ht, t, ?_⟩
      by_cases hroot : h.isRoot file.normalize = true
      · left
        exact ⟨hroot, by simp [snapshot, ht, hd, hroot]⟩
      · right
        simp [snapshot, ht, hd, hroot]

theorem follows_perform (h : ServiceHost) (o : Operation) : Follows h (h.perform o) := by
  cases o with
  | updateFile p text => exact follows_updateFile h p text
  | setOptions o => exact follows_setOptions h o
  | snapshot view file =>
    show Follows h (h.snapshot view file).2
    rcases snapshot_cases h view file with hs | ⟨hnone, text, ⟨hroot, hs⟩ | hs⟩
    · rw [hs]
      exact Follows.refl h
    · rw [hs]
      exact follows_update (Nat.le_refl _) (fun _ => .inr ⟨hnone, hroot⟩)
    · rw [hs]
      exact follows_updateFile h _ text

theorem ordered_perform (hh : h.files.Ordered) (o : Operation) : (h.perform o).files.Ordered := by
  cases o with
  | updateFile p text => exact hh.update p text
  | setOptions o =>
    show (h.setOptions o).files.Ordered
    rw [setOptions]
    split
    · exact hh
    · exact hh
  | snapshot view file =>
    show (h.snapshot view file).2.files.Ordered
    rcases snapshot_cases h view file with hs | ⟨-, text, ⟨-, hs⟩ | hs⟩
    · rw [hs]
      exact hh
    · rw [hs]
      exact hh.update _ text
    · rw [hs]
      exact hh.update _ text

/-! ## A run -/

theorem follows_run (h : ServiceHost) (operations : List Operation) :
    Follows h (h.run operations) := by
  induction operations generalizing h with
  | nil => exact Follows.refl h
  | cons o operations ih => exact (follows_perform h o).trans (ih (h.perform o))

theorem ordered_run (hh : h.files.Ordered) (operations : List Operation) :
    (h.run operations).files.Ordered := by
  induction operations generalizing h with
  | nil => exact hh
  | cons o operations ih => exact ih (ordered_perform hh o)

/-! ## The names of the program's files -/

/-- The names are in order, and no path stands among them twice. -/
theorem scriptNames_rising (hh : h.files.Ordered)
    (hroots : h.rootFiles.Pairwise fun a b => a.same b = false) :
    h.scriptNames.Pairwise fun a b => a.cmp b = .lt := by
  apply Sorted.sort_rising
  refine List.pairwise_append.mpr ⟨?_, ?_, ?_⟩
  · refine hh.paths.imp ?_
    intro a b hab
    simp [hab]
  · refine (hroots.filter _).imp ?_
    intro a b hab
    simp [Path.cmp_eq_iff_same, hab]
  · intro a ha b hb heq
    have hb := (List.mem_filter.mp hb).2
    rw [FileTable.contains_iff_paths.mpr ⟨a, ha, Path.cmp_eq_iff_same.mp heq⟩] at hb
    cases hb

/-- Hosts with the same files, known or input, have the same names. -/
theorem scriptNames_congr (hh : h.files.Ordered) (hh' : h'.files.Ordered)
    (hroots : h.rootFiles.Pairwise fun a b => a.same b = false)
    (hrootFiles : h'.rootFiles = h.rootFiles)
    (hsame : ∀ p, (h.files.contains p = true ∨ h.isRoot p = true) ↔
      (h'.files.contains p = true ∨ h'.isRoot p = true)) :
    h.scriptNames.map Path.components = h'.scriptNames.map Path.components := by
  have hlt : ∀ a b : Path, a.cmp b = .lt →
      List.compareLex Component.cmp a.components b.components = .lt := by
    intro a b hab
    rwa [← Path.cmp_eq_compareLex]
  have hrise := scriptNames_rising hh hroots
  have hrise' := scriptNames_rising hh' (hrootFiles ▸ hroots)
  refine Sorted.eq_of_rising (List.pairwise_map.mpr (hrise.imp (hlt _ _)))
    (List.pairwise_map.mpr (hrise'.imp (hlt _ _))) ?_
  have hmem : ∀ (h : ServiceHost) (p : Path), p.components ∈ h.scriptNames.map Path.components ↔
      (h.files.contains p = true ∨ h.isRoot p = true) := by
    intro h p
    rw [← exists_scriptNames_iff, List.mem_map]
    simp only [Path.same_iff]
  intro names
  constructor
  · intro hn
    obtain ⟨p, -, rfl⟩ := List.mem_map.mp hn
    exact (hmem h' p).mpr ((hsame p).mp ((hmem h p).mp hn))
  · intro hn
    obtain ⟨p, -, rfl⟩ := List.mem_map.mp hn
    exact (hmem h p).mpr ((hsame p).mpr ((hmem h' p).mp hn))

/-! ## The contract -/

/-- What the versions of a host say about it at an earlier and a later moment.  Lists of
names are compared path by path, by components, since a path may be spelled in two ways. -/
structure Contract (earlier later : ServiceHost) : Prop where
  projectVersion_le : earlier.projectVersion ≤ later.projectVersion
  options_eq : earlier.projectVersion = later.projectVersion → earlier.options = later.options
  names_eq : earlier.projectVersion = later.projectVersion →
    earlier.scriptNames.map Path.components = later.scriptNames.map Path.components
  text_eq : earlier.projectVersion = later.projectVersion → ∀ p text,
    earlier.files.text? p = some text → later.files.text? p = some text
  scriptVersion_le : ∀ file version, earlier.scriptVersion? file = some version →
    ∃ version', later.scriptVersion? file = some version' ∧ version ≤ version'
  text_eq_of_scriptVersion : ∀ file, later.files.contains file.normalize = true →
    earlier.scriptVersion? file = later.scriptVersion? file →
      earlier.files.text? file.normalize = later.files.text? file.normalize
  names_rising : later.scriptNames.Pairwise fun a b => a.cmp b = .lt
  names_complete : ∀ p, (∃ name ∈ later.scriptNames, name.same p = true) ↔
    later.files.contains p = true ∨ later.isRoot p = true

theorem Follows.scriptVersion_le (a : Follows h h') {version : Nat}
    (hv : h.scriptVersion? file = some version) :
    ∃ version', h'.scriptVersion? file = some version' ∧ version ≤ version' := by
  cases hr : h.files.get? file.normalize with
  | some r =>
    obtain ⟨r', hr', hle, -, -⟩ := a.kept _ r hr
    have hversion : r.version = version := by
      simpa [scriptVersion?, FileTable.version?, hr] using hv
    refine ⟨r'.version, ?_, by omega⟩
    simp [scriptVersion?, FileTable.version?, hr']
  | none =>
    have hroot : h.isRoot file.normalize = true ∧ 0 = version := by
      simpa [scriptVersion?, FileTable.version?, hr] using hv
    cases hr' : h'.files.get? file.normalize with
    | some r' =>
      refine ⟨r'.version, ?_, by omega⟩
      simp [scriptVersion?, FileTable.version?, hr']
    | none =>
      refine ⟨0, ?_, by omega⟩
      simp [scriptVersion?, FileTable.version?, hr', a.isRoot, hroot.1]

/-- A known file that has the version it had before was known before, with the same text:
an input file that was not read yet has a version that no known file has. -/
theorem Follows.text_eq_of_scriptVersion (a : Follows h h') (hh' : h'.files.Ordered)
    (hc : h'.files.contains file.normalize = true)
    (hv : h.scriptVersion? file = h'.scriptVersion? file) :
    h.files.text? file.normalize = h'.files.text? file.normalize := by
  obtain ⟨r', hr'⟩ := FileTable.contains_eq_true.mp hc
  have hpos := hh'.counted _ r' hr'
  have hv' : h'.scriptVersion? file = some r'.version := by
    simp [scriptVersion?, FileTable.version?, hr']
  rw [hv'] at hv
  cases hr : h.files.get? file.normalize with
  | some r =>
    have hversion : r.version = r'.version := by
      simpa [scriptVersion?, FileTable.version?, hr] using hv
    obtain ⟨r'', hr'', -, htext, -⟩ := a.kept _ r hr
    rw [hr'] at hr''
    cases hr''
    simp [FileTable.text?, hr, hr', htext hversion]
  | none =>
    have hzero : h.isRoot file.normalize = true ∧ 0 = r'.version := by
      simpa [scriptVersion?, FileTable.version?, hr] using hv
    omega

theorem Follows.contract (a : Follows h h') (hh : h.files.Ordered) (hh' : h'.files.Ordered)
    (hroots : h.rootFiles.Pairwise fun a b => a.same b = false) : Contract h h' where
  projectVersion_le := a.version
  options_eq hv := (a.options hv).symm
  names_eq hv := by
    refine scriptNames_congr hh hh' hroots a.rootFiles fun p => ?_
    rw [a.isRoot]
    constructor
    · rintro (hp | hp)
      · obtain ⟨r, hr⟩ := FileTable.contains_eq_true.mp hp
        obtain ⟨r', hr', -⟩ := a.kept p r hr
        exact .inl (FileTable.contains_eq_true.mpr ⟨r', hr'⟩)
      · exact .inr hp
    · rintro (hp | hp)
      · exact a.new hv p hp
      · exact .inr hp
  text_eq hv p text hp := by
    obtain ⟨r, hr, rfl⟩ := Option.map_eq_some_iff.mp hp
    obtain ⟨r', hr', -, -, htext⟩ := a.kept p r hr
    exact Option.map_eq_some_iff.mpr ⟨r', hr', htext hv⟩
  scriptVersion_le _ _ := a.scriptVersion_le
  text_eq_of_scriptVersion _ := a.text_eq_of_scriptVersion hh'
  names_rising := scriptNames_rising hh' (a.rootFiles ▸ hroots)
  names_complete := exists_scriptNames_iff h'

/-- A host whose input files are distinct keeps the contract between any two moments of
any run of operations, whatever each read finds on disk. -/
theorem contract_of_run (options : CompilerOptions) (rootFiles : List Path) (cwd : Path)
    (hroots : rootFiles.Pairwise fun a b => a.same b = false)
    (before between : List Operation) :
    Contract (run { rootFiles, options, cwd } before)
      (run { rootFiles, options, cwd } (before ++ between)) := by
  have hfirst := follows_run { rootFiles, options, cwd } before
  have hordered : (run { rootFiles, options, cwd } before).files.Ordered :=
    ordered_run FileTable.ordered_empty before
  rw [run_append]
  exact (follows_run _ between).contract hordered (ordered_run hordered between)
    (hfirst.rootFiles ▸ hroots)

def inputFile : Path := Path.ofString "/project/globals.d.ts"

def inputView : FileView :=
  (KnownFiles.add {} inputFile (.ok "declare const __DEV__: boolean;\n")).view

/-- Between showing a file and reading an input file the number stays, though the table
has grown. -/
theorem contract_of_run_input :
    let start : ServiceHost :=
      { rootFiles := [inputFile], options := {}, cwd := Path.ofString "/project" }
    let before := [Operation.updateFile (Path.ofString "/project/a.ts") "export const a = 1;\n"]
    let between := [Operation.snapshot inputView inputFile]
    (start.run before).projectVersion = (start.run (before ++ between)).projectVersion ∧
      (start.run before).files.contains inputFile = false ∧
      (start.run (before ++ between)).files.contains inputFile = true ∧
      Contract (start.run before) (start.run (before ++ between)) := by
  refine ⟨by decide +kernel, by decide +kernel, by decide +kernel, ?_⟩
  exact contract_of_run {} [inputFile] (Path.ofString "/project") (List.pairwise_singleton _ _) _ _

end ServiceHost
end TestTransform

/-
The options that are read from configuration files and hosts.

A file is sorted when it is read, and merging files and resolving their paths keeps it so.  So
the untyped options of a configuration set are such as a reader gives.
-/
import TestTransform.Proofs.Config.Alike
import TestTransform.Proofs.Host.Reread
import TestTransform.Proofs.Options.Other

namespace TestTransform

theorem Json.isProper_resolveValue (dir : Path) (x : Json) (hx : IsProper x) :
    IsProper (TsConfig.resolveValue dir x) := by
  cases x with
  | str t => exact ⟨rfl, fun n hn => by cases hn⟩
  | null | bool | num | arr | obj => exact hx

namespace TsConfig

theorem isProper_resolvePathOptions {options : Json.Fields} (h : Json.IsProper (.obj options))
    (dir : Path) : Json.IsProper (.obj (resolvePathOptions options dir)) :=
  List.foldlRecOn (motive := fun fs => Json.IsProper (.obj fs)) pathOptions _ h
    fun _ hfs name _ => hfs.modify (Json.isProper_resolveValue dir) name

theorem rising_resolvePathOptions {options : Json.Fields} (h : Assoc.Rising Text.cmp options)
    (dir : Path) : Assoc.Rising Text.cmp (resolvePathOptions options dir) :=
  List.foldlRecOn pathOptions _ h fun _ hfs name _ => hfs.modify name _

/-! ## Files -/

/-- Whether the options of a configuration are such as a reader gives. -/
def IsProper (c : TsConfig) : Prop := Json.IsProper (.obj c.compilerOptions)

theorem isProper_empty : ({} : TsConfig).IsProper := Json.isProper_obj_nil

theorem isProper_onTopOf {above below : TsConfig} (ha : above.IsProper) (hb : below.IsProper) :
    (above.onTopOf below).IsProper :=
  Json.IsProper.insertAll hb ha

theorem isProper_of_ofJson? {j : Json} {w : Written} (hj : Json.IsProper j)
    (h : Written.ofJson? j = some w) : Json.IsProper (.obj w.compilerOptions) := by
  rw [Written.ofJson?] at h
  split at h
  · rename_i bases compilerOptions files includes excludes references hrecord
    simp only [Option.bind_eq_bind, Option.bind_eq_some_iff] at h
    obtain ⟨bases', -, options, hoptions, files', -, includes', -, excludes', -, references', -,
      h⟩ := h
    cases h
    cases compilerOptions with
    | none =>
      cases hoptions
      exact Json.isProper_obj_nil
    | some x =>
      have hx := (Json.contains_of_record? hrecord x (by simp)).isProper hj
      cases x with
      | null =>
        cases hoptions
        exact Json.isProper_obj_nil
      | obj fs =>
        cases hoptions
        exact hx
      | bool | num | str | arr => cases hoptions
  · cases h

theorem isProper_readWritten {view : FileView} {path : Path} {w : Written}
    (h : readWritten view path = .ok w) : Json.IsProper (.obj w.compilerOptions) := by
  rw [readWritten, Except.bind_eq_ok] at h
  obtain ⟨source, -, h⟩ := h
  split at h
  · rename_i w' hw
    cases h
    obtain ⟨j, hj, hw⟩ := Option.bind_eq_some_iff.mp hw
    exact isProper_of_ofJson? (Json.isProper_of_ofText? hj) hw
  · cases h

theorem isProper_readBases {view : FileView} {read : Reader}
    (hread : ∀ visited path c visited', read visited path = .ok (c, visited') → c.IsProper)
    {dir : Path} {names : List Text} {below c : TsConfig} {visited visited' : List Path}
    (hbelow : below.IsProper)
    (h : readBases view read dir names below visited = .ok (c, visited')) : c.IsProper := by
  induction names generalizing below visited with
  | nil =>
    cases h
    exact hbelow
  | cons name names ih =>
    simp only [readBases, Except.bind_eq_ok] at h
    obtain ⟨path, -, ⟨base, visited₁⟩, hbase, h⟩ := h
    exact ih (isProper_onTopOf (hread _ _ _ _ hbase) hbelow) h

theorem isProper_readChain {view : FileView} {fuel : Nat} {visited visited' : List Path}
    {path : Path} {c : TsConfig} (h : readChain view fuel visited path = .ok (c, visited')) :
    c.IsProper := by
  induction fuel generalizing visited path c visited' with
  | zero => cases h
  | succ fuel ih =>
    rw [readChain] at h
    split at h
    · cases h
    · simp only [Except.bind_eq_ok] at h
      obtain ⟨w, hw, ⟨below, visited₁⟩, hbelow, h⟩ := h
      cases h
      have hown : (ofWritten view path w).IsProper :=
        isProper_resolvePathOptions (isProper_readWritten hw) _
      exact isProper_onTopOf hown
        (isProper_readBases (fun _ _ _ _ h => ih h) isProper_empty hbelow)

theorem isProper_read {view : FileView} {path : Path} {c : TsConfig}
    (h : read view path = .ok c) : c.IsProper := by
  rw [read] at h
  cases hchain : readChain view (view.count + 2) [] path.normalize with
  | error e =>
    rw [hchain] at h
    cases h
  | ok found =>
    obtain ⟨c', visited⟩ := found
    rw [hchain] at h
    cases h
    exact isProper_readChain hchain

end TsConfig

/-! ## Hosts -/

theorem HostConfig.IsProper.globals {h : HostConfig} (hh : h.IsProper) :
    Json.IsProper (.obj h.globals) :=
  ⟨hh.sorted, hh.machine⟩

/-- Inline options are sorted when the options of a host are read. -/
theorem HostOptions.exists_of_inline {j : Json} {o : HostOptions} (h : ofJson? j = some o)
    {own : Json.Fields} (hown : o.tsconfig = some (.inline own)) :
    ∃ fs, Json.Contains j (.obj fs) ∧ Json.obj own = Json.canon (.obj fs) := by
  rw [ofJson?] at h
  split at h
  · rename_i tsconfig isolated compiler diagnostics stringify esm hrecord
    simp only [Option.bind_eq_bind, Option.bind_eq_some_iff] at h
    obtain ⟨source, hsource, isolated', -, compiler', -, diagnostics', -, stringify', -, esm', -,
      h⟩ := h
    cases h
    replace hown : source = some (.inline own) := hown
    rw [hown] at hsource
    cases tsconfig with
    | none => cases hsource
    | some x =>
      cases x with
      | obj fs =>
        refine ⟨fs, Json.contains_of_record? hrecord _ (by simp), ?_⟩
        replace hsource : (TsConfigSource.ofJson? (.obj fs)).map some = some (some (.inline own)) :=
          hsource
        rw [TsConfigSource.ofJson?] at hsource
        split at hsource
        · rename_i hsorted
          cases hsource
          exact hsorted.symm
        · cases hsource
      | null | bool | num | str | arr => cases hsource
  · cases h

/-- Options are the default ones or are read from one of the globals. -/
theorem HostConfig.exists_of_options {h : HostConfig} {o : HostOptions} (ho : h.options = .ok o) :
    o = {} ∨ ∃ k j, (k, j) ∈ h.globals ∧ HostOptions.ofJson? j = some o := by
  rw [options] at ho
  split at ho
  · cases ho
    exact .inl rfl
  · cases ho
    exact .inl rfl
  · rename_i hfield
    split at ho
    · rename_i hread
      cases ho
      obtain ⟨k, -, hmem⟩ := Assoc.mem_of_find? hfield
      exact .inr ⟨k, _, hmem, hread⟩
    · cases ho

theorem HostConfig.isProper_inline {h : HostConfig} (hh : h.IsProper) {o : HostOptions}
    (ho : h.options = .ok o) :
    ∀ own, o.tsconfig = some (.inline own) → Json.IsProper (.obj own) := by
  intro own hown
  rcases exists_of_options ho with rfl | ⟨k, j, hmem, hread⟩
  · cases hown
  · obtain ⟨fs, hcontains, hcanon⟩ := HostOptions.exists_of_inline hread hown
    have hproper := hcontains.isProper ((Json.isProper_obj.mp hh.globals).2 _ hmem)
    rw [hcanon, hproper.canon_eq]
    exact hproper

theorem HostConfig.isCanonical_inline {h : HostConfig} {o : HostOptions} (ho : h.options = .ok o)
    {own : Json.Fields} (hown : o.tsconfig = some (.inline own)) :
    Json.IsCanonical (.obj own) := by
  rcases exists_of_options ho with rfl | ⟨k, j, hmem, hread⟩
  · cases hown
  · obtain ⟨fs, -, hcanon⟩ := HostOptions.exists_of_inline hread hown
    rw [hcanon]
    exact Json.isCanonical_canon _

/-! ## Configuration sets -/

namespace ResolvedTsConfig

theorem isProper_mergeInline {h : HostConfig} {source : Option TsConfigSource}
    {options : Json.Fields} (hoptions : Json.IsProper (.obj options))
    (hsource : ∀ own, source = some (.inline own) → Json.IsProper (.obj own)) :
    Json.IsProper (.obj (mergeInline h source options)) := by
  unfold mergeInline
  split
  · exact hoptions.insertAll (TsConfig.isProper_resolvePathOptions (hsource _ rfl) _)
  · exact hoptions

/-- The options are read from an object such as a reader gives. -/
theorem exists_fields_of_resolve {view : FileView} {h : HostConfig} {source : Option TsConfigSource}
    {withFileNames : Bool} {r : ResolvedTsConfig}
    (hsource : ∀ own, source = some (.inline own) → Json.IsProper (.obj own))
    (hr : resolve view h source withFileNames = .ok r) :
    ∃ fields typed, Json.IsProper (.obj fields) ∧ CompilerOptions.ofFields fields = .ok typed ∧
      r.options = complete h typed := by
  rw [resolve_eq] at hr
  simp only [Except.bind_eq_ok] at hr
  obtain ⟨path, -, file, hfile, typed, htyped, references, -, fileNames, -, hr⟩ := hr
  cases hr
  have hproper : file.IsProper := by
    cases path with
    | none =>
      cases hfile
      exact TsConfig.isProper_empty
    | some p => exact TsConfig.isProper_read hfile
  exact ⟨_, typed, isProper_mergeInline hproper hsource, Except.mapError_eq_ok.mp htyped, rfl⟩

theorem isProper_resolve {view : FileView} {h : HostConfig} {source : Option TsConfigSource}
    {withFileNames : Bool} {r : ResolvedTsConfig}
    (hsource : ∀ own, source = some (.inline own) → Json.IsProper (.obj own))
    (hr : resolve view h source withFileNames = .ok r) : r.options.IsProper := by
  obtain ⟨fields, typed, hproper, htyped, hoptions⟩ := exists_fields_of_resolve hsource hr
  rw [hoptions, CompilerOptions.IsProper, other_complete]
  exact CompilerOptions.isProper_ofFields htyped hproper

end ResolvedTsConfig

theorem ConfigSet.isProper_of_build {view : FileView} {registry : CompilerRegistry}
    {codes : List Nat} {host : HostConfig} {c : ConfigSet} (hhost : host.IsProper)
    (h : build view registry codes host = .ok c) : c.options.IsProper := by
  obtain ⟨o, resolved, hc⟩ := build_eq_ok h
  have hoptions : c.options = resolved.options := by rw [hc.eq]
  rw [hoptions]
  exact ResolvedTsConfig.isProper_resolve (HostConfig.isProper_inline hhost hc.options) hc.resolve

end TestTransform

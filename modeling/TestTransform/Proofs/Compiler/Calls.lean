/-
What one call of the type-checking compiler does to what it knows.

A call takes in texts, and at its very end it may record modules in the graph.  `T` says
which texts may be held for a file, and `E` which entries the graph may have.  They are
kept by a call if the disk only holds such texts, recorded texts are such texts, and what the
file of the call reaches makes such an entry, in the picture that the session has once the
content is shown: whatever is taken in during the call was on disk and changes nothing in it.
-/
import TestTransform.Proofs.Compiler.Modules
import TestTransform.Proofs.Graph.Entries

namespace TestTransform

namespace Disk

/-- Spelling does not matter for reading. -/
theorem read?_congr {p q : Path} (h : p.same q = true) (d : Disk) : d.read? p = d.read? q := by
  have hdenied : ∀ denied : List Path,
      (denied.any fun r => r.same p) = denied.any fun r => r.same q := by
    intro denied
    refine congrArg (denied.any ·) (funext fun r => ?_)
    rw [Bool.eq_iff_iff, Path.same_iff, Path.same_iff, Path.same_iff.mp h]
  simp only [read?, read, guarded, hdenied, Store.read, Store.file?, Path.normalize_congr h]
  split
  · rfl
  · cases Assoc.find? Path.cmp q.normalize d.store.files <;> rfl

end Disk

namespace LanguageCompiler
namespace Session

variable {T : Path → Text → Prop} {E : Path → GraphEntry → Prop}

/-- A call in progress that was begun in `s₀` and has not recorded anything yet. -/
structure During (T : Path → Text → Prop) (s₀ s : Session) : Prop where
  config : s.config = s₀.config
  graph : s.compiler.graph = s₀.compiler.graph
  disk : s.world.disk = s₀.world.disk
  miniature : s.world.engine.IsMiniature
  texts : ∀ p t, p.normalize = p → s.held? p = some t → T p t

/-- What a call that was begun in `s₀` leaves behind.  At most one entry is new, and the
graph's file is written at most once, with the graph that is then in memory. -/
structure After (T : Path → Text → Prop) (E : Path → GraphEntry → Prop) (s₀ s : Session) :
    Prop where
  config : s.config = s₀.config
  file : s.compiler.graph.file = s₀.compiler.graph.file
  graph : s.compiler.graph.graph = s₀.compiler.graph.graph ∨
    ∃ p e, s.compiler.graph.graph = (s₀.compiler.graph.graph.insert p e).2
  disk : s.world.disk = s₀.world.disk ∨ ∃ g, s₀.compiler.graph.file = some g ∧
    s₀.world.disk.write g s.compiler.graph.graph.toText = .ok s.world.disk
  miniature : s.world.engine.IsMiniature
  texts : ∀ p t, p.normalize = p → s.held? p = some t → T p t
  entries : ∀ p e, p.normalize = p → s.compiler.graph.graph.get? p = some e → E p e

/-- Whether a picture shows each file as it is on disk, or with a text that may be held. -/
def Shows (T : Path → Text → Prop) (d : Disk) (pic : Picture) : Prop :=
  ∀ p, p.normalize = p → pic p = d.picture p ∨ ∃ t, T p t ∧ pic p = ⟨some t, true⟩

/-- What has to hold for a call with a content for a file to keep texts and entries as they
may be.  The call is begun in `s₀`. -/
structure Kept (T : Path → Text → Prop) (E : Path → GraphEntry → Prop) (s₀ : Session)
    (file : Path) (content : Text) : Prop where
  onDisk : ∀ p t, p.normalize = p → s₀.world.disk.read? p = some t → T p t
  recorded : ∀ p e, p.normalize = p → E p e → T p e.content
  passed : T file content
  found : ∀ bound, Closure.IsBound (s₀.update file content).picture.imports bound →
    E file ⟨content, Closure.ofImports (s₀.update file content).picture.imports bound file⟩

namespace During

variable {s₀ s s' : Session} {file : Path} {content : Text}

theorem explores (d : During T s₀ s) (hk : Kept T E s₀ file content) (e : Explores s s') :
    During T s₀ s' :=
  { config := e.config.trans d.config
    graph := e.graph.trans d.graph
    disk := e.disk.trans d.disk
    miniature := e.miniature
    texts := by
      intro p t hp ht
      rcases e.host.text?_cases ht with h | ⟨-, h⟩
      · exact d.texts p t hp h
      · rw [hp] at h
        exact hk.onDisk p t hp (d.disk ▸ h) }

theorem update (d : During T s₀ s) {file : Path} {text : Text}
    (ht : ∀ p, p.normalize = p → p.same file = true → T p text) :
    During T s₀ (s.update file text) :=
  { config := d.config
    graph := d.graph
    disk := d.disk
    miniature := d.miniature
    texts := by
      intro p t hp h
      rw [held?_update] at h
      split at h
      · rename_i hsame
        cases h
        exact ht p hp hsame
      · exact d.texts p t hp h }

theorem setOptions (d : During T s₀ s) (options : TransformOptions) :
    During T s₀ (s.setOptions options) :=
  { config := d.config
    graph := d.graph
    disk := d.disk
    miniature := d.miniature
    texts := by
      intro p t hp h
      refine d.texts p t hp ?_
      rw [held?, Session.setOptions, setHost, ServiceHost.setOptions] at h
      split at h <;> exact h }

theorem remember (d : During T s₀ s) (memo : TestMemo) :
    During T s₀ { s with compiler := { s.compiler with memo } } :=
  ⟨d.config, d.graph, d.disk, d.miniature, d.texts⟩

/-- A call that records nothing. -/
theorem after (d : During T s₀ s)
    (he : ∀ p e, p.normalize = p → s₀.compiler.graph.graph.get? p = some e → E p e) :
    After T E s₀ s :=
  { config := d.config
    file := by rw [d.graph]
    graph := .inl (by rw [d.graph])
    disk := .inl d.disk
    miniature := d.miniature
    texts := d.texts
    entries := by rwa [d.graph] }

/-- A call that records modules at its end. -/
theorem record (d : During T s₀ s)
    (he : ∀ p e, p.normalize = p → s₀.compiler.graph.graph.get? p = some e → E p e)
    {modules : List Path} (hf : file.normalize = file)
    (hnew : E file ⟨content, modules⟩) : After T E s₀ (s.record file content modules) := by
  have hentries : ∀ p e, p.normalize = p →
      (s.compiler.graph.graph.insert file ⟨content, modules⟩).2.get? p = some e → E p e := by
    intro p e hp hget
    rcases DependencyGraph.get?_insert_cases s.compiler.graph.graph file p ⟨content, modules⟩ with
      h | ⟨hsame, h⟩
    · rw [h, d.graph] at hget
      exact he p e hp hget
    · rw [h] at hget
      cases hget
      rwa [← hp, Path.normalize_congr hsame, hf]
  rw [Session.record, GraphCache.record]
  cases hins : s.compiler.graph.graph.insert file ⟨content, modules⟩ with
  | mk changed graph =>
    rw [hins] at hentries
    have hgraph : ∃ p e, graph = (s₀.compiler.graph.graph.insert p e).2 :=
      ⟨file, ⟨content, modules⟩, by rw [← d.graph, hins]⟩
    cases changed with
    | false =>
      refine ⟨d.config, ?_, .inr hgraph, .inl d.disk, d.miniature, d.texts, hentries⟩
      rw [← d.graph]
      rfl
    | true =>
      simp only [if_true]
      cases hsave : GraphCache.save { s.compiler.graph with graph } s.world.disk with
      | error e =>
        exact ⟨d.config, by rw [← d.graph], .inr hgraph, .inl d.disk, d.miniature, d.texts,
          hentries⟩
      | ok disk =>
        refine ⟨d.config, by rw [← d.graph], .inr hgraph, .inr ?_, d.miniature, d.texts, hentries⟩
        simp only [GraphCache.save] at hsave
        split at hsave
        · cases hsave
        · rename_i g hg
          refine ⟨g, by rw [← d.graph]; exact hg, ?_⟩
          rw [← d.disk]
          cases hwrite : s.world.disk.write g graph.toText with
          | error e => rw [hwrite] at hsave; cases hsave
          | ok disk' => rw [hwrite] at hsave; cases hsave; rfl

/-- The picture that the session has shows nothing that may not be held. -/
theorem shows (d : During T s₀ s) : Shows T s₀.world.disk s.picture := by
  intro p hp
  cases ht : s.held? p with
  | none => exact .inl (by rw [picture_eq_of_not_held hp ht, d.disk])
  | some t => exact .inr ⟨t, d.texts p t hp ht, picture_eq_of_held hp ht⟩

/-- The modules found for the file of the call make an entry. -/
theorem found (d : During T s₀ s) (hk : Kept T E s₀ file content)
    (hpicture : s.picture = (s₀.update file content).picture) :
    E file ⟨content, (s.collectModules file).1⟩ := by
  have hbound := isBound_imports d.miniature
  rw [hpicture] at hbound
  rw [collectModules_eq d.miniature, hpicture]
  exact hk.found _ hbound

end During

section Call

variable {s₀ s : Session} {file : Path} {content : Text} (hk : Kept T E s₀ file content)
  (he : ∀ p e, p.normalize = p → s₀.compiler.graph.graph.get? p = some e → E p e)
include hk he

/-- The text with which a dependent is checked again may be held for it, whichever way its
path is spelled. -/
theorem recordedText_admitted (d : During T s₀ s) {f : Path} {t : Text}
    (h : s.recordedText? f = some t) (p : Path) (hp : p.normalize = p)
    (hsame : p.same f = true) : T p t := by
  rw [recordedText?, ← Disk.read?_congr hsame, ← DependencyGraph.get?_congr hsame] at h
  cases hd : s.world.disk.read? p with
  | some t' =>
    rw [hd] at h
    cases h
    exact hk.onDisk p t hp (d.disk ▸ hd)
  | none =>
    rw [hd] at h
    obtain ⟨e, hget, rfl⟩ := Option.map_eq_some_iff.mp (h : Option.map _ _ = some t)
    rw [d.graph] at hget
    exact hk.recorded p e hp (he p e hp hget)

theorem recheck_during (files : List Path) (d : During T s₀ s) :
    During T s₀ (s.recheck files).2 := by
  induction files generalizing s with
  | nil => exact d
  | cons file files ih =>
    rw [recheck]
    split
    · exact ih d
    · rename_i t ht
      have hu := d.update (recordedText_admitted hk he d ht)
      have hc := hu.explores hk (typeCheck_explores hu.miniature file)
      split <;> rename_i heq <;> rw [heq] at hc
      · exact ih hc
      · exact hc

theorem followUp_after (d : During T s₀ s) (hf : file.normalize = file)
    (hpicture : s.picture = (s₀.update file content).picture) :
    After T E s₀ (s.followUp file content).2 := by
  obtain ⟨test, memo, htest⟩ := isTest_eq s file
  have hm := d.remember memo
  rw [followUp, htest]
  cases test with
  | true =>
    have hfound := hm.found hk hpicture
    exact (hm.explores hk (collectModules_explores hm.miniature file)).record he hf hfound
  | false => exact (recheck_during hk he _ hm).after he

theorem build_after (d : During T s₀ s) (hf : file.normalize = file)
    (hpicture : s.picture = (s₀.update file content).picture) :
    After T E s₀ (s.build file content).2 := by
  have he₁ := ask_explores Engine.emitFile_takesIn d.miniature file
  cases hask : s.ask Engine.emitFile file with
  | mk emitted s₁ =>
    rw [hask] at he₁
    have d₁ := d.explores hk he₁
    have hpicture₁ := he₁.picture_eq.trans hpicture
    have he₂ := typeCheck_explores d₁.miniature file
    have d₂ := d₁.explores hk he₂
    have hpicture₂ := he₂.picture_eq.trans hpicture₁
    simp only [build, hask]
    split <;> rename_i heq <;> rw [heq] at d₂ hpicture₂
    · exact d₂.after he
    · have ha := followUp_after hk he d₂ hf hpicture₂
      split <;> rename_i heq' <;> rw [heq'] at ha
      · exact ha
      · split
        · exact ha
        · refine ⟨ha.config, ha.file, ha.graph, ha.disk, ha.miniature, ?_, ha.entries⟩
          intro p t hp h
          refine ha.texts p t hp ?_
          rwa [held?, remember, setHost, FileTable.text?_storeOutput] at h

end Call

section Whole

variable {s : Session} {content : Text} {file : Path}

/-- Showing the content of a call. -/
theorem begin_during {s₀ : Session} (d : During T s₀ s) (hc : T file.normalize content) :
    During T s₀ (s.update file.normalize content) := by
  refine d.update fun p hp hsame => ?_
  have hn := Path.normalize_congr hsame
  rw [hp, Path.normalize_normalize] at hn
  rwa [hn]

/-- Options do not matter for the picture. -/
theorem picture_update_setOptions (s : Session) (options : TransformOptions) (file : Path)
    (content : Text) :
    ((s.setOptions options).update file content).picture = (s.update file content).picture := by
  have hfiles : (s.setOptions options).compiler.host.files = s.compiler.host.files := by
    rw [Session.setOptions, setHost, ServiceHost.setOptions]
    split <;> rfl
  refine ServiceHost.picture_of_files ?_ s.world.view
  rw [Session.update, setHost, ServiceHost.files_updateFile, hfiles]
  rfl

variable (hk : Kept T E s file.normalize content) (hm : s.world.engine.IsMiniature)
  (ht : ∀ p t, p.normalize = p → s.held? p = some t → T p t)
  (he : ∀ p e, p.normalize = p → s.compiler.graph.graph.get? p = some e → E p e)
include hk hm ht he

theorem compile_after (options : TransformOptions) :
    After T E s (s.compile content file options).2 := by
  have h₀ : During T s s := ⟨rfl, rfl, rfl, hm, ht⟩
  have hd := begin_during (h₀.setOptions options) hk.passed
  rw [compile]
  split
  · exact hd.after he
  · exact build_after hk he hd (Path.normalize_normalize file)
      (picture_update_setOptions s options _ content)

theorem resolvedModules_after : After T E s (s.resolvedModules content file).2 := by
  have h₀ : During T s s := ⟨rfl, rfl, rfl, hm, ht⟩
  have hd := begin_during h₀ hk.passed
  have hn := Path.normalize_normalize file
  rw [resolvedModules]
  split
  · exact h₀.after he
  · have hfound := hd.found hk rfl
    have hw := hd.explores hk (collectModules_explores hd.miniature file.normalize)
    obtain ⟨test, memo, htest⟩ :=
      isTest_eq ((s.update file.normalize content).collectModules file.normalize).2 file.normalize
    simp only [htest]
    cases test with
    | true => exact (hw.remember memo).record he hn hfound
    | false => exact (hw.remember memo).after he

end Whole

/-- The modules found for a content: those of a valid entry, or else those of a walk that
begins when the content has been shown for the file. -/
theorem resolvedModules_cases {s : Session} (hm : s.world.engine.IsMiniature) (content : Text)
    (file : Path) :
    (∃ e, s.compiler.graph.graph.get? file.normalize = some e ∧ e.content = content ∧
      (s.resolvedModules content file).1 = e.modules) ∨
    (s.compiler.graph.lookupValid? file.normalize content = none ∧
      (s.resolvedModules content file).1 =
        Closure.ofImports (s.update file.normalize content).picture.imports
          (s.update file.normalize content).bound file.normalize) := by
  rw [resolvedModules]
  cases hl : s.compiler.graph.lookupValid? file.normalize content with
  | some modules =>
    left
    simp only [GraphCache.lookupValid?, Option.map_eq_some_iff, Option.filter_eq_some_iff,
      beq_iff_eq] at hl
    obtain ⟨e, ⟨hget, hcontent⟩, rfl⟩ := hl
    exact ⟨e, hget, hcontent, rfl⟩
  | none =>
    refine .inr ⟨rfl, ?_⟩
    rw [← collectModules_eq (s := s.update file.normalize content) hm]
    dsimp only
    split <;> rfl

end Session
end LanguageCompiler
end TestTransform

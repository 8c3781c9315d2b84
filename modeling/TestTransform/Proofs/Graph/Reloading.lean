/-
Loading a cache again.

Loading puts what the file holds in place of what a cache holds, whoever wrote the file, and
nothing in place of it if the file cannot be read as a graph.  Only where there is no file does
loading change nothing: a cache that held entries keeps them, which one that is opened on the
directory then does not have.
-/
import TestTransform.Proofs.Graph.Writers

namespace TestTransform

open GraphCache (fileIn stored Operation perform)

namespace GraphCache

variable {c : GraphCache} {d : Disk} {dir : Path}

/-- No operation takes a cache to another file. -/
theorem file_perform (s : GraphCache × Disk) (op : Operation) :
    (perform s op).1.file = s.1.file := by
  cases op with
  | record p content modules =>
    simp only [perform, record]
    split
    · split <;> rfl
    · rfl
  | clear =>
    simp only [perform, clear]
    split
    · rfl
    · split <;> rfl
  | load =>
    simp only [perform, load]
    split
    · rfl
    · split <;> rfl
  | save => rfl

theorem load_of_hasFile (hfile : c.file = some (fileIn dir))
    (h : d.hasFile (fileIn dir) = true) : c.load d.view = openAt d.view (some dir) := by
  have hload := congrArg Prod.fst (perform_load (d := d) hfile)
  rw [h, if_pos rfl] at hload
  rw [openAt_eq, ← hfile]
  exact hload

theorem load_of_no_file (hfile : c.file = some (fileIn dir))
    (h : d.hasFile (fileIn dir) = false) : c.load d.view = c := by
  have hload := congrArg Prod.fst (perform_load (d := d) hfile)
  rw [h, if_neg Bool.false_ne_true] at hload
  exact hload

/-- A file that cannot be read as a graph counts as an empty graph. -/
theorem stored_of_unreadable
    (h : ∀ t, d.read (fileIn dir) = .ok t → DependencyGraph.ofText? t = none) :
    stored d dir = {} := by
  have hnone : (d.read (fileIn dir)).toOption.bind DependencyGraph.ofText? = none := by
    cases hread : d.read (fileIn dir) with
    | error e => rfl
    | ok t => exact h t hread
  rw [stored, hnone]
  split <;> rfl

/-- Loading is opening anew, unless the cache holds entries and the file is missing. -/
theorem entries_load_iff (hfile : c.file = some (fileIn dir)) :
    (c.load d.view).graph.entries = (openAt d.view (some dir)).graph.entries ↔
      d.hasFile (fileIn dir) = true ∨ c.graph.entries = [] := by
  cases h : d.hasFile (fileIn dir) with
  | true =>
    rw [load_of_hasFile hfile h]
    exact iff_of_true rfl (.inl rfl)
  | false =>
    rw [load_of_no_file hfile h, openAt_eq, stored_of_no_file h]
    exact ⟨.inr, fun hc => hc.resolve_left Bool.false_ne_true⟩

end GraphCache

namespace SharedGraph

/-! ## Caches and what happens around them -/

/-- What happens to caches on a directory and to their disk. -/
inductive Incident where
  /-- One more cache is made and not loaded. -/
  | made
  /-- The caches are used. -/
  | used (e : Event)
  /-- Files are written, spoiled or removed from outside, or other operations are denied than
  before. -/
  | changed (disk : Disk)
  deriving DecidableEq

/-- What an incident leads to. -/
def undergo? (dir : Path) (s : SharedGraph) : Incident → Option SharedGraph
  | .made => some { s with caches := s.caches ++ [GraphCache.new (some dir)] }
  | .used e => step? dir s e
  | .changed disk => some { s with disk }

/-- What incidents lead to that happen one after another. -/
def history? (dir : Path) (s : SharedGraph) (incidents : List Incident) : Option SharedGraph :=
  incidents.foldlM (undergo? dir) s

variable {dir : Path} {s s' : SharedGraph} {i : Nat} {c : GraphCache} {d : Disk}

/-- Whether all caches keep their graphs in the directory. -/
def OnDirectory (dir : Path) (s : SharedGraph) : Prop :=
  ∀ c ∈ s.caches, c.file = some (fileIn dir)

theorem OnDirectory.append (h : OnDirectory dir s) (hc : c.file = some (fileIn dir)) :
    OnDirectory dir { s with caches := s.caches ++ [c] } := by
  intro c' hc'
  rcases List.mem_append.mp hc' with hc' | hc'
  · exact h c' hc'
  · rw [List.mem_singleton.mp hc']
    exact hc

theorem OnDirectory.undergo (h : OnDirectory dir s) {x : Incident}
    (hstep : undergo? dir s x = some s') : OnDirectory dir s' := by
  cases x with
  | made =>
    cases hstep
    exact h.append rfl
  | used e =>
    cases e with
    | opened =>
      cases hstep
      exact h.append (by rw [GraphCache.openAt_eq])
    | did i op =>
      obtain ⟨c, hc, rfl⟩ := Option.map_eq_some_iff.mp hstep
      intro c' hc'
      rcases List.mem_or_eq_of_mem_set hc' with hc' | rfl
      · exact h c' hc'
      · rw [GraphCache.file_perform]
        exact h c (List.mem_of_getElem? hc)
  | changed disk =>
    cases hstep
    exact h

theorem OnDirectory.history (h : OnDirectory dir s) {incidents : List Incident}
    (hrun : history? dir s incidents = some s') : OnDirectory dir s' := by
  induction incidents generalizing s with
  | nil =>
    cases hrun
    exact h
  | cons x incidents ih =>
    rw [history?, List.foldlM_cons] at hrun
    obtain ⟨s₁, hstep, hrest⟩ := Option.bind_eq_some_iff.mp hrun
    exact ih (h.undergo hstep) hrest

/-- What it means to load a cache that shares a directory with others. -/
structure Reloads (dir : Path) (s : SharedGraph) (i : Nat) (c : GraphCache) (s' : SharedGraph)
    (c' : GraphCache) : Prop where
  loads : undergo? dir s (.used (.did i .load)) = some s'
  loaded : s'.caches[i]? = some c'
  /-- Nothing else is changed. -/
  caches : s'.caches = s.caches.set i c'
  disk : s'.disk = s.disk
  /-- If the file is there, the cache is then the one that would be opened on the directory. -/
  present : s.disk.hasFile (fileIn dir) = true → c' = GraphCache.openAt s'.disk.view (some dir)
  /-- It is empty if the file is there and cannot be read as a graph. -/
  corrupt : s.disk.hasFile (fileIn dir) = true →
    (∀ t, s.disk.read (fileIn dir) = .ok t → DependencyGraph.ofText? t = none) →
      c'.graph.entries = []
  /-- If the file is missing, the cache is what it was. -/
  missing : s.disk.hasFile (fileIn dir) = false → c' = c
  /-- It has the entries of a newly opened one exactly if the file is there or it held none. -/
  reopened : c'.graph.entries = (GraphCache.openAt s'.disk.view (some dir)).graph.entries ↔
    s.disk.hasFile (fileIn dir) = true ∨ c.graph.entries = []

theorem Reloads.of_file (hc : s.caches[i]? = some c) (hfile : c.file = some (fileIn dir)) :
    Reloads dir s i c ⟨s.caches.set i (c.load s.disk.view), s.disk⟩ (c.load s.disk.view) where
  loads := Option.map_eq_some_iff.mpr ⟨c, hc, rfl⟩
  loaded := List.getElem?_set_self (List.getElem?_eq_some_iff.mp hc).1
  caches := rfl
  disk := rfl
  present := GraphCache.load_of_hasFile hfile
  corrupt := fun h hread => by
    rw [GraphCache.load_of_hasFile hfile h, GraphCache.openAt_eq,
      GraphCache.stored_of_unreadable hread]
  missing := GraphCache.load_of_no_file hfile
  reopened := GraphCache.entries_load_iff hfile

/-- Whatever has happened to caches on a directory and to their disk, one of them can be loaded,
which puts what the file holds in place of what the cache held, and only a missing file leaves
it as it is. -/
theorem load_of_history {incidents : List Incident}
    (hrun : history? dir ⟨[], d⟩ incidents = some s) (hc : s.caches[i]? = some c) :
    ∃ s' c', Reloads dir s i c s' c' := by
  have hstart : OnDirectory dir ⟨[], d⟩ := by simp [OnDirectory]
  exact ⟨_, _, .of_file hc (hstart.history hrun c (List.mem_of_getElem? hc))⟩

namespace Spoiled

/-- The graph's file with a text that is no graph. -/
def disk : Disk := { store := ({} : Store).add (fileIn Overwritten.cacheDir) "no graph" }

/-- A cache has recorded an entry when its file is spoiled. -/
def incidents : List Incident :=
  [.made, .used (.did 0 Overwritten.recordA), .changed disk]

end Spoiled

theorem load_of_history_spoiled :
    ∃ s c, history? Overwritten.cacheDir ⟨[], {}⟩ Spoiled.incidents = some s ∧
      s.caches[0]? = some c ∧ c.graph.entries.length = 1 ∧
      ∃ s' c', undergo? Overwritten.cacheDir s (.used (.did 0 .load)) = some s' ∧
        s'.caches[0]? = some c' ∧ c'.graph.entries = [] := by
  have hheld : ((history? Overwritten.cacheDir ⟨[], {}⟩ Spoiled.incidents).bind fun s =>
      s.caches[0]?.map fun c => (c.graph.entries.length,
        s.disk.hasFile (fileIn Overwritten.cacheDir),
        (s.disk.read (fileIn Overwritten.cacheDir)).toOption.bind DependencyGraph.ofText?)) =
      some (1, true, none) := by decide +kernel
  obtain ⟨s, hrun, hs⟩ := Option.bind_eq_some_iff.mp hheld
  obtain ⟨c, hc, heq⟩ := Option.map_eq_some_iff.mp hs
  obtain ⟨hlength, hthere, htext⟩ : c.graph.entries.length = 1 ∧ _ = true ∧ _ = none := by
    simpa only [Prod.mk.injEq] using heq
  obtain ⟨s', c', h⟩ := load_of_history hrun hc
  refine ⟨s, c, hrun, hc, hlength, s', c', h.loads, h.loaded, h.corrupt hthere fun t ht => ?_⟩
  rw [ht] at htext
  exact htext

/-- A cache whose file another cache has removed still holds its entry after loading. -/
theorem not_always_reopened :
    ¬ ∀ (dir : Path) (d : Disk) (incidents : List Incident) (s s' : SharedGraph) (i : Nat)
      (c' : GraphCache), history? dir ⟨[], d⟩ incidents = some s →
      undergo? dir s (.used (.did i .load)) = some s' → s'.caches[i]? = some c' →
      c'.graph.entries = (GraphCache.openAt s'.disk.view (some dir)).graph.entries := by
  intro h
  have hstale : ((history? Overwritten.cacheDir ⟨[], {}⟩ [.used .opened,
      .used (.did 0 Overwritten.recordA), .used .opened, .used (.did 1 .clear)]).bind fun s =>
      (undergo? Overwritten.cacheDir s (.used (.did 0 .load))).bind fun s' =>
        s'.caches[0]?.map fun c' => (c'.graph.entries.length,
          (GraphCache.openAt s'.disk.view (some Overwritten.cacheDir)).graph.entries.length)) =
      some (1, 0) := by decide +kernel
  obtain ⟨s, hrun, hs⟩ := Option.bind_eq_some_iff.mp hstale
  obtain ⟨s', hload, hs'⟩ := Option.bind_eq_some_iff.mp hs
  obtain ⟨c', hc', heq⟩ := Option.map_eq_some_iff.mp hs'
  rw [h _ _ _ _ _ _ _ hrun hload hc', Prod.mk.injEq] at heq
  exact absurd (heq.1.symm.trans heq.2) (by decide)

end SharedGraph
end TestTransform

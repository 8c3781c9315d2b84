/-
Writers that share the file of a graph.

Each cache that writes puts its own view in place of the file, so updates get lost and old
entries come back through caches that still hold them.  All that is ever held or written are
entries that some cache recorded, though: nothing else comes out of a lookup, in whatever
order the caches are opened and used.
-/
import TestTransform.Proofs.Graph.Cache
import TestTransform.Proofs.Graph.Entries

namespace TestTransform

open GraphCache (fileIn stored Operation perform)

/-- The caches that were opened on a directory, and the disk that they share. -/
structure SharedGraph where
  caches : List GraphCache := []
  disk : Disk
  deriving DecidableEq

namespace SharedGraph

inductive Event where
  /-- One more cache is opened. -/
  | opened
  /-- The cache with this number does something. -/
  | did (i : Nat) (op : Operation)
  deriving DecidableEq, Repr

/-- What an event leads to.  Only a cache that was opened can do something. -/
def step? (dir : Path) (s : SharedGraph) : Event → Option SharedGraph
  | .opened => some { s with caches := s.caches ++ [GraphCache.openAt s.disk.view (some dir)] }
  | .did i op => s.caches[i]?.map fun c =>
    ⟨s.caches.set i (perform (c, s.disk) op).1, (perform (c, s.disk) op).2⟩

/-- What events lead to that happen one after another. -/
def run? (dir : Path) (s : SharedGraph) (events : List Event) : Option SharedGraph :=
  events.foldlM (step? dir) s

variable {dir : Path} {log log' : List Event} {s s' : SharedGraph} {c : GraphCache} {d : Disk}

theorem run?_cons_eq_some {e : Event} {events : List Event} :
    run? dir s (e :: events) = some s' ↔
      ∃ s₁, step? dir s e = some s₁ ∧ run? dir s₁ events = some s' := by
  rw [run?, List.foldlM_cons]
  exact Option.bind_eq_some_iff

theorem run?_append_eq_some {events events' : List Event} :
    run? dir s (events ++ events') = some s' ↔
      ∃ s₁, run? dir s events = some s₁ ∧ run? dir s₁ events' = some s' := by
  rw [run?, List.foldlM_append]
  exact Option.bind_eq_some_iff

/-! ## Where entries come from -/

/-- Whether some cache recorded an entry for a file. -/
def Recorded (log : List Event) (p : Path) (e : GraphEntry) : Prop :=
  ∃ i q modules, Event.did i (.record q e.content modules) ∈ log ∧ q.same p = true ∧
    GraphEntry.samePaths modules e.modules = true

/-- Whether all entries of a graph were recorded. -/
def Traced (log : List Event) (g : DependencyGraph) : Prop :=
  ∀ e ∈ g.entries, Recorded log e.1 e.2

theorem Traced.mono {g : DependencyGraph} (h : Traced log g) (hsub : log ⊆ log') :
    Traced log' g := by
  intro e he
  obtain ⟨i, q, modules, hmem, hrest⟩ := h e he
  exact ⟨i, q, modules, hsub hmem, hrest⟩

theorem traced_empty : Traced log {} := by
  intro e he
  cases he

theorem Traced.insert {g : DependencyGraph} (h : Traced log g) {i : Nat} {p : Path}
    {content : Text} {modules : List Path} (hmem : .did i (.record p content modules) ∈ log) :
    Traced log (g.insert p ⟨content, modules⟩).2 := by
  rw [DependencyGraph.insert]
  split
  · exact h
  · rintro ⟨q, e⟩ he
    rcases Assoc.mem_of_mem_insert he with he | ⟨hq, rfl⟩
    · exact h _ he
    · exact ⟨i, p, modules, hmem, Path.cmp_eq_iff_same.mp hq, GraphEntry.samePaths_refl _⟩

theorem Traced.recorded {g : DependencyGraph} (h : Traced log g) {p : Path} {e : GraphEntry}
    (he : g.get? p = some e) : Recorded log p e := by
  obtain ⟨q, hq, hmem⟩ := Assoc.mem_of_find? he
  obtain ⟨i, r, modules, hlog, hr, hmodules⟩ := h _ hmem
  refine ⟨i, r, modules, hlog, ?_, hmodules⟩
  rw [Path.same_iff] at hr ⊢
  rw [hr, Path.cmp_eq_iff.mp hq]

/-! ## What each event keeps -/

/-- Whether the file of a graph is missing or holds entries that were recorded. -/
def FileSound (dir : Path) (log : List Event) (d : Disk) : Prop :=
  d.hasFile (fileIn dir) = false ∨
    ∃ g : DependencyGraph, g.Rising ∧ Traced log g ∧ d.read (fileIn dir) = .ok g.toText

structure CacheSound (dir : Path) (log : List Event) (c : GraphCache) : Prop where
  file : c.file = some (fileIn dir)
  rising : c.graph.Rising
  traced : Traced log c.graph

structure Sound (dir : Path) (log : List Event) (s : SharedGraph) : Prop where
  serves : s.disk.Serves (fileIn dir)
  file : FileSound dir log s.disk
  caches : ∀ c ∈ s.caches, CacheSound dir log c

theorem FileSound.mono (h : FileSound dir log d) (hsub : log ⊆ log') : FileSound dir log' d := by
  rcases h with h | ⟨g, hrising, htraced, hread⟩
  · exact .inl h
  · exact .inr ⟨g, hrising, htraced.mono hsub, hread⟩

theorem CacheSound.mono (h : CacheSound dir log c) (hsub : log ⊆ log') :
    CacheSound dir log' c :=
  ⟨h.file, h.rising, h.traced.mono hsub⟩

theorem FileSound.traced_stored (h : FileSound dir log d) : Traced log (stored d dir) := by
  rcases h with h | ⟨g, hrising, htraced, hread⟩
  · rw [GraphCache.stored_of_no_file h]
    exact traced_empty
  · rw [stored, hread]
    split
    · simp only [Except.toOption, Option.bind_some, DependencyGraph.ofText?_toText hrising,
        Option.getD_some]
      exact htraced
    · exact traced_empty

/-- What is written into the file is the graph of a cache. -/
theorem CacheSound.fileSound_holding (h : CacheSound dir log c) (hserves : d.Serves (fileIn dir)) :
    FileSound dir log (d.holding (fileIn dir) c.graph.toText) :=
  .inr ⟨c.graph, h.rising, h.traced, Disk.read_holding hserves _⟩

theorem cacheSound_openAt (h : FileSound dir log d) :
    CacheSound dir log (GraphCache.openAt d.view (some dir)) := by
  rw [GraphCache.openAt_eq]
  exact ⟨rfl, GraphCache.rising_stored d dir, h.traced_stored⟩

/-- An operation that is in the log leaves a cache and the file with entries that were
recorded. -/
theorem sound_perform (hserves : d.Serves (fileIn dir)) (hfile : FileSound dir log d)
    (hcache : CacheSound dir log c) {i : Nat} {op : Operation} (hmem : .did i op ∈ log) :
    (perform (c, d) op).2.Serves (fileIn dir) ∧ FileSound dir log (perform (c, d) op).2 ∧
      CacheSound dir log (perform (c, d) op).1 := by
  cases op with
  | record p content modules =>
    rw [GraphCache.perform_record hcache.file hserves]
    have hinserted : CacheSound dir log
        { c with graph := (c.graph.insert p ⟨content, modules⟩).2 } :=
      ⟨hcache.file, hcache.rising.insert _ _, hcache.traced.insert hmem⟩
    cases hchanged : (c.graph.insert p ⟨content, modules⟩).1 with
    | true =>
      simp only [hchanged, if_true]
      exact ⟨hserves.holding _, hinserted.fileSound_holding hserves, hinserted⟩
    | false =>
      simp only [hchanged, Bool.false_eq_true, if_false]
      exact ⟨hserves, hfile, hinserted⟩
  | clear =>
    rw [GraphCache.perform_clear hcache.file hserves]
    have hcleared : CacheSound dir log { c with graph := {} } :=
      ⟨hcache.file, DependencyGraph.rising_empty, traced_empty⟩
    cases hd : d.hasFile (fileIn dir) with
    | true => exact ⟨hserves.without, .inl (d.hasFile_without _), hcleared⟩
    | false => exact ⟨hserves, .inl hd, hcleared⟩
  | load =>
    rw [GraphCache.perform_load hcache.file]
    cases hd : d.hasFile (fileIn dir) with
    | true =>
      exact ⟨hserves, hfile, hcache.file, GraphCache.rising_stored d dir, hfile.traced_stored⟩
    | false => exact ⟨hserves, hfile, hcache⟩
  | save =>
    rw [GraphCache.perform_save hcache.file hserves]
    exact ⟨hserves.holding _, hcache.fileSound_holding hserves, hcache⟩

theorem Sound.step (h : Sound dir log s) {e : Event} (hstep : step? dir s e = some s') :
    Sound dir (log ++ [e]) s' := by
  have hsub : log ⊆ log ++ [e] := List.subset_append_left _ _
  have hcaches : ∀ c ∈ s.caches, CacheSound dir (log ++ [e]) c := fun c hc =>
    (h.caches c hc).mono hsub
  cases e with
  | opened =>
    cases hstep
    refine ⟨h.serves, h.file.mono hsub, fun c hc => ?_⟩
    rcases List.mem_append.mp hc with hc | hc
    · exact hcaches c hc
    · rw [List.mem_singleton.mp hc]
      exact cacheSound_openAt (h.file.mono hsub)
  | did i op =>
    obtain ⟨c, hc, rfl⟩ := Option.map_eq_some_iff.mp hstep
    have hmem : .did i op ∈ log ++ [.did i op] := by simp
    obtain ⟨hserves, hfile, hcache⟩ := sound_perform h.serves (h.file.mono hsub)
      (hcaches c (List.mem_of_getElem? hc)) hmem
    refine ⟨hserves, hfile, fun c' hc' => ?_⟩
    rcases List.mem_or_eq_of_mem_set hc' with hc' | rfl
    · exact hcaches c' hc'
    · exact hcache

theorem Sound.run {events : List Event} (h : Sound dir log s)
    (hrun : run? dir s events = some s') : Sound dir (log ++ events) s' := by
  induction events generalizing log s with
  | nil =>
    cases hrun
    rwa [List.append_nil]
  | cons e events ih =>
    obtain ⟨s₁, hstep, hrest⟩ := run?_cons_eq_some.mp hrun
    have hsound := ih (h.step hstep) hrest
    rwa [List.append_assoc] at hsound

theorem sound_start (hserves : d.Serves (fileIn dir)) (hfile : d.hasFile (fileIn dir) = false) :
    Sound dir [] ⟨[], d⟩ :=
  ⟨hserves, .inl hfile, fun _ hc => nomatch hc⟩

/-! ## What a cache finds of its own -/

/-- Whether the graph holds an entry for a file, or one that equals it. -/
def Finds (c : GraphCache) (p : Path) (e : GraphEntry) : Prop :=
  ∃ e', c.graph.get? p = some e' ∧ e'.same e = true

/-- Whether after an event a cache need not find any more what it recorded for a file. -/
def Event.supersedes (i : Nat) (p : Path) : Event → Bool
  | .did j (.record q _ _) => j == i && q.same p
  | .did j .clear => j == i
  | .did j .load => j == i
  | .did _ .save => false
  | .opened => false

theorem Finds.perform {p : Path} {e : GraphEntry} (h : Finds c p e)
    (hfile : c.file = some (fileIn dir)) (hserves : d.Serves (fileIn dir)) {i : Nat}
    {op : Operation} (hkeeps : (Event.did i op).supersedes i p = false) :
    Finds (GraphCache.perform (c, d) op).1 p e := by
  cases op with
  | record q content modules =>
    have hne : q.same p = false := by simpa [Event.supersedes] using hkeeps
    rw [GraphCache.perform_record hfile hserves, Finds]
    simp only [DependencyGraph.get?_insert_of_not_same hne]
    exact h
  | save =>
    rw [GraphCache.perform_save hfile hserves]
    exact h
  | clear => simp [Event.supersedes] at hkeeps
  | load => simp [Event.supersedes] at hkeeps

/-- Only its own clearing, loading and recording take from a cache what it found. -/
theorem Sound.finds_step (h : Sound dir log s) {e : Event} (hstep : step? dir s e = some s')
    {i : Nat} {p : Path} {entry : GraphEntry} (hc : s.caches[i]? = some c)
    (hfinds : Finds c p entry) (hkeeps : e.supersedes i p = false) :
    ∃ c', s'.caches[i]? = some c' ∧ Finds c' p entry := by
  cases e with
  | opened =>
    cases hstep
    have hi := (List.getElem?_eq_some_iff.mp hc).1
    exact ⟨c, by rwa [List.getElem?_append_left hi], hfinds⟩
  | did j op =>
    obtain ⟨c', hc', rfl⟩ := Option.map_eq_some_iff.mp hstep
    by_cases hij : j = i
    · subst hij
      rw [hc] at hc'
      cases hc'
      refine ⟨_, List.getElem?_set_self (List.getElem?_eq_some_iff.mp hc).1, ?_⟩
      exact hfinds.perform (h.caches c (List.mem_of_getElem? hc)).file h.serves hkeeps
    · exact ⟨c, by rwa [List.getElem?_set_ne hij], hfinds⟩

theorem Sound.finds_run {events : List Event} (h : Sound dir log s)
    (hrun : run? dir s events = some s') {i : Nat} {p : Path} {entry : GraphEntry}
    (hc : s.caches[i]? = some c) (hfinds : Finds c p entry)
    (hkeeps : ∀ e ∈ events, e.supersedes i p = false) :
    ∃ c', s'.caches[i]? = some c' ∧ Finds c' p entry := by
  induction events generalizing log s c with
  | nil =>
    cases hrun
    exact ⟨c, hc, hfinds⟩
  | cons e events ih =>
    obtain ⟨hkeep, hrest⟩ := List.forall_mem_cons.mp hkeeps
    obtain ⟨s₁, hstep, hrun₁⟩ := run?_cons_eq_some.mp hrun
    obtain ⟨c₁, hc₁, hfinds₁⟩ := h.finds_step hstep hc hfinds hkeep
    exact ih (h.step hstep) hrun₁ hc₁ hfinds₁ hrest

theorem Sound.finds_record (h : Sound dir log s) {i : Nat} {p : Path} {content : Text}
    {modules : List Path} (hstep : step? dir s (.did i (.record p content modules)) = some s') :
    ∃ c, s'.caches[i]? = some c ∧ Finds c p ⟨content, modules⟩ := by
  obtain ⟨c, hc, rfl⟩ := Option.map_eq_some_iff.mp hstep
  refine ⟨_, List.getElem?_set_self (List.getElem?_eq_some_iff.mp hc).1, ?_⟩
  rw [GraphCache.perform_record (h.caches c (List.mem_of_getElem? hc)).file h.serves]
  exact c.graph.get?_insert_self p ⟨content, modules⟩

theorem Finds.lookupValid? {p q : Path} {content : Text} {modules : List Path}
    (h : Finds c p ⟨content, modules⟩) (hq : q.same p = true) :
    ∃ found, c.lookupValid? q content = some found ∧
      GraphEntry.samePaths found modules = true := by
  obtain ⟨e, he, hsame⟩ := h
  obtain ⟨hcontent, hmodules⟩ := Bool.and_eq_true_iff.mp hsame
  refine ⟨e.modules, ?_, hmodules⟩
  have hvalid : (e.content == content) = true := hcontent
  rw [GraphCache.lookupValid?, DependencyGraph.get?_congr hq, he, Option.filter_some, if_pos hvalid]
  rfl

/-- Caches that share a directory, however they are opened and used by turns, find nothing but
what was recorded.  The file is missing or holds a graph.  What a cache says of a file with
some content is what some cache recorded for that file with that content.  And what a cache
recorded last for a file it finds itself until it clears or loads. -/
theorem sound_of_run (hserves : d.Serves (fileIn dir)) (hfile : d.hasFile (fileIn dir) = false)
    (hrun : run? dir ⟨[], d⟩ log = some s) :
    (s.disk.hasFile (fileIn dir) = false ∨
      ∃ t g, s.disk.read (fileIn dir) = .ok t ∧ DependencyGraph.ofText? t = some g) ∧
    (∀ c ∈ s.caches, ∀ p content modules, c.lookupValid? p content = some modules →
      ∃ j q recorded, .did j (.record q content recorded) ∈ log ∧ q.same p = true ∧
        GraphEntry.samePaths recorded modules = true) ∧
    ∀ before after i p content modules,
      log = before ++ .did i (.record p content modules) :: after →
      (∀ e ∈ after, e.supersedes i p = false) →
      ∃ c, s.caches[i]? = some c ∧ ∀ q : Path, q.same p = true →
        ∃ found, c.lookupValid? q content = some found ∧
          GraphEntry.samePaths found modules = true := by
  have hsound : Sound dir log s := (sound_start hserves hfile).run hrun
  refine ⟨?_, ?_, ?_⟩
  · rcases hsound.file with hnone | ⟨g, hrising, -, hread⟩
    · exact .inl hnone
    · exact .inr ⟨g.toText, g, hread, DependencyGraph.ofText?_toText hrising⟩
  · intro c hc p content modules hlookup
    obtain ⟨e, he, rfl⟩ := Option.map_eq_some_iff.mp hlookup
    obtain ⟨hget, hcontent⟩ := Option.filter_eq_some_iff.mp he
    rw [← beq_iff_eq.mp hcontent]
    exact (hsound.caches c hc).traced.recorded hget
  · intro before after i p content modules hlog hkeeps
    rw [hlog] at hrun
    obtain ⟨s₁, hbefore, hrest⟩ := run?_append_eq_some.mp hrun
    obtain ⟨s₂, hstep, hafter⟩ := run?_cons_eq_some.mp hrest
    have hsound₁ : Sound dir before s₁ := (sound_start hserves hfile).run hbefore
    obtain ⟨c₂, hc₂, hfinds₂⟩ := hsound₁.finds_record hstep
    obtain ⟨c, hc, hfinds⟩ := (hsound₁.step hstep).finds_run hafter hc₂ hfinds₂ hkeeps
    exact ⟨c, hc, fun q hq => hfinds.lookupValid? hq⟩

namespace Overwritten

def cacheDir : Path := ⟨"/cache"⟩

def recordA : Operation := .record ⟨"/a.ts"⟩ "import './b'" [⟨"/b.ts"⟩]

/-- The second cache is opened too early to see the first entry and writes over it. -/
def events : List Event :=
  [ .opened, .opened, .did 0 recordA, .did 1 (.record ⟨"/c.ts"⟩ "export {}" []) ]

end Overwritten

/-- What was lost from the file is still found by the cache that recorded it. -/
theorem sound_of_run_overwritten :
    ∃ s, run? Overwritten.cacheDir ⟨[], {}⟩ Overwritten.events = some s ∧
      (GraphCache.openAt s.disk.view (some Overwritten.cacheDir)).lookup? ⟨"/a.ts"⟩ = none ∧
      ∃ c, s.caches[0]? = some c ∧ ∀ q : Path, q.same ⟨"/a.ts"⟩ = true →
        ∃ found, c.lookupValid? q "import './b'" = some found ∧
          GraphEntry.samePaths found [⟨"/b.ts"⟩] = true := by
  have hserves : ({} : Disk).Serves (fileIn Overwritten.cacheDir) := ⟨rfl, rfl, rfl⟩
  have hlost : ((run? Overwritten.cacheDir ⟨[], {}⟩ Overwritten.events).map fun s =>
      (GraphCache.openAt s.disk.view (some Overwritten.cacheDir)).lookup? ⟨"/a.ts"⟩) =
        some none := by decide +kernel
  obtain ⟨s, hrun, hs⟩ := Option.map_eq_some_iff.mp hlost
  obtain ⟨-, -, hown⟩ := sound_of_run hserves rfl hrun
  exact ⟨s, hrun, hs, hown [.opened, .opened] [.did 1 (.record ⟨"/c.ts"⟩ "export {}" [])] 0
    ⟨"/a.ts"⟩ "import './b'" [⟨"/b.ts"⟩] rfl (by decide)⟩

end SharedGraph
end TestTransform

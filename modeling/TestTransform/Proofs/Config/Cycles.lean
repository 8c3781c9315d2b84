/-
When reading a configuration file comes to an end, and what it takes for a cycle.

Files that are read extend others, so following the names in them leads along routes from file
to file.  Each file on a chain is another one that can be read, so chains are no longer than
there are files, and the bound on their length is never reached.  A file that two routes lead to
is taken for a cycle, whether or not one route goes on from the other.  Without such files and
with nothing amiss in those that there are, all are read.
-/
import Mathlib.Data.List.Infix
import TestTransform.Config.TsConfig
import TestTransform.Proofs.Files.Store
import TestTransform.Proofs.Path.Dotted

namespace TestTransform

/-- Whether the number that goes with a view bounds the number of files that can be read, each
counted under its normal form. -/
def FileView.Bounded (view : FileView) : Prop :=
  ∀ l : List Path, l.Nodup → (∀ p ∈ l, p.normalize = p ∧ ∃ t, view.read p = .ok t) →
    l.length ≤ view.count

theorem Disk.bounded_view (d : Disk) : d.view.Bounded := by
  intro l hd h
  refine Store.length_le_of_hasFile hd (fun p hp => (h p hp).1) fun p hp => ?_
  obtain ⟨t, ht⟩ := (h p hp).2
  exact hasFile_of_read ht

namespace TsConfig

/-! ## Routes from file to file -/

/-- Whether `q` is what the name with number `i` stands for of those that `p` extends. -/
def Extends (view : FileView) (p : Path) (i : Nat) (q : Path) : Prop :=
  ∃ w name, readWritten view p = .ok w ∧ w.bases[i]? = some name ∧
    resolveBase view (dirOf p) name = .ok q

/-- Whether a route leads from one file to another.  A route says by number which of the names
to follow in each file on the way. -/
inductive Leads (view : FileView) : Path → List Nat → Path → Prop where
  | here {p : Path} : Leads view p [] p
  | step {p q r : Path} {i : Nat} {route : List Nat} : Extends view p i q →
      Leads view q route r → Leads view p (i :: route) r

/-- Whether a route leads to a file whose first number counts the given names. -/
def LeadsAmong (view : FileView) (dir : Path) (names : List Text) : List Nat → Path → Prop
  | [], _ => False
  | i :: route, r => ∃ name q, names[i]? = some name ∧ resolveBase view dir name = .ok q ∧
      Leads view q route r

section Routes

variable {view : FileView} {p q r : Path} {route route' : List Nat}

theorem Extends.unique {i : Nat} (h : Extends view p i q) (h' : Extends view p i r) : q = r := by
  obtain ⟨w, name, hw, hname, hq⟩ := h
  obtain ⟨w', name', hw', hname', hr⟩ := h'
  rw [hw] at hw'
  cases hw'
  rw [hname] at hname'
  cases hname'
  rw [hq] at hr
  exact Except.ok.inj hr

/-- A route leads to one file. -/
theorem Leads.unique (h : Leads view p route q) (h' : Leads view p route r) : q = r := by
  induction h with
  | here =>
    cases h'
    rfl
  | step hstep _ ih =>
    cases h' with
    | step hstep' hrest =>
      rw [hstep.unique hstep'] at ih
      exact ih hrest

theorem Leads.split (h : Leads view p (route ++ route') r) :
    ∃ m, Leads view p route m ∧ Leads view m route' r := by
  induction route generalizing p with
  | nil => exact ⟨p, .here, h⟩
  | cons i route ih =>
    cases h with
    | step hstep hrest =>
      obtain ⟨m, hm, hr⟩ := ih hrest
      exact ⟨m, .step hstep hm, hr⟩

theorem Leads.append (h : Leads view p route q) (h' : Leads view q route' r) :
    Leads view p (route ++ route') r := by
  induction h with
  | here => exact h'
  | step hstep _ ih => exact .step hstep (ih h')

/-- A route from a file that can be read is empty or begins with one of its names. -/
theorem leads_cons_iff {w : Written} (hw : readWritten view p = .ok w) {i : Nat} :
    Leads view p (i :: route) r ↔ LeadsAmong view (dirOf p) w.bases (i :: route) r := by
  constructor
  · intro h
    cases h with
    | step hstep hrest =>
      obtain ⟨w', name, hw', hname, hq⟩ := hstep
      rw [hw] at hw'
      cases hw'
      exact ⟨name, _, hname, hq, hrest⟩
  · rintro ⟨name, q, hname, hq, hrest⟩
    exact .step ⟨w, name, hw, hname, hq⟩ hrest

theorem leadsAmong_cons_zero {dir : Path} {name : Text} {names : List Text}
    (hq : resolveBase view dir name = .ok q) :
    LeadsAmong view dir (name :: names) (0 :: route) r ↔ Leads view q route r := by
  constructor
  · rintro ⟨name', q', hname, hq', hrest⟩
    cases hname
    rw [hq] at hq'
    cases hq'
    exact hrest
  · exact fun h => ⟨name, q, rfl, hq, h⟩

theorem leadsAmong_cons_succ {dir : Path} {name : Text} {names : List Text} {i : Nat} :
    LeadsAmong view dir (name :: names) ((i + 1) :: route) r ↔
      LeadsAmong view dir names (i :: route) r := Iff.rfl

end Routes

/-- Whether a route comes by a file and comes by it again. -/
def OnCycle (view : FileView) (start q : Path) : Prop :=
  ∃ route round, round ≠ [] ∧ Leads view start route q ∧ Leads view q round q

/-- Whether two routes lead to a file neither of which goes on from the other. -/
def Shared (view : FileView) (start q : Path) : Prop :=
  ∃ route route', ¬ route <+: route' ∧ ¬ route' <+: route ∧ Leads view start route q ∧
    Leads view start route' q

theorem onCycle_or_shared {view : FileView} {start q : Path} :
    OnCycle view start q ∨ Shared view start q ↔
      ∃ route route', route' ≠ route ∧ Leads view start route q ∧ Leads view start route' q := by
  constructor
  · rintro (⟨route, round, hround, hroute, hq⟩ | ⟨route, route', h, -, hroute, hroute'⟩)
    · exact ⟨route, route ++ round, by simpa using hround, hroute, hroute.append hq⟩
    · refine ⟨route, route', ?_, hroute, hroute'⟩
      rintro rfl
      exact h List.prefix_rfl
  · have hahead : ∀ {route route'}, route <+: route' → route' ≠ route →
        Leads view start route q → Leads view start route' q → OnCycle view start q := by
      rintro route _ ⟨round, rfl⟩ hne hroute hroute'
      obtain ⟨m, hm, hq⟩ := hroute'.split
      rw [hm.unique hroute] at hq
      exact ⟨route, round, by simpa using hne, hroute, hq⟩
    rintro ⟨route, route', hne, hroute, hroute'⟩
    by_cases h : route <+: route'
    · exact .inl (hahead h hne hroute hroute')
    · by_cases h' : route' <+: route
      · exact .inl (hahead h' hne.symm hroute' hroute)
      · exact .inr ⟨route, route', h, h', hroute, hroute'⟩

/-! ## Files in which something is amiss -/

/-- Whether a file cannot be read, or one of the names in it stands for no file, with the error
that tells so. -/
def IsAmiss (view : FileView) (p : Path) (e : ConfigError) : Prop :=
  readWritten view p = .error e ∨
    ∃ w name, readWritten view p = .ok w ∧ name ∈ w.bases ∧
      resolveBase view (dirOf p) name = .error e

/-- Whether nothing is amiss in the files that routes lead to. -/
def Legible (view : FileView) (start : Path) : Prop :=
  ∀ route p e, Leads view start route p → ¬ IsAmiss view p e

theorem readWritten_ne_extendsCycle {view : FileView} {p q : Path} :
    readWritten view p ≠ .error (.extendsCycle q) := by
  intro h
  rw [readWritten] at h
  cases hread : view.read p with
  | error e =>
    rw [hread] at h
    cases h
  | ok source =>
    rw [hread] at h
    dsimp only [Except.mapError, bind, Except.bind] at h
    split at h <;> cases h

theorem resolveBase_ne_extendsCycle {view : FileView} {dir q : Path} {name : Text} :
    resolveBase view dir name ≠ .error (.extendsCycle q) := by
  intro h
  rw [resolveBase] at h
  split at h
  · dsimp only at h
    split at h <;> cases h
  · split at h <;> cases h

theorem not_isAmiss_extendsCycle {view : FileView} {p q : Path} :
    ¬ IsAmiss view p (.extendsCycle q) := by
  rintro (h | ⟨w, name, -, -, h⟩)
  · exact readWritten_ne_extendsCycle h
  · exact resolveBase_ne_extendsCycle h

/-! ## Reading in rules -/

mutual

/-- What reading a file comes to after some files were come by, with no bound on the length of
chains. -/
inductive Reading (view : FileView) :
    List Path → Path → Except ConfigError (TsConfig × List Path) → Prop where
  | again {visited : List Path} {path : Path} : path ∈ visited →
      Reading view visited path (.error (.extendsCycle path))
  | refused {visited : List Path} {path : Path} {e : ConfigError} : path ∉ visited →
      readWritten view path = .error e → Reading view visited path (.error e)
  | failed {visited : List Path} {path : Path} {w : Written} {e : ConfigError} :
      path ∉ visited → readWritten view path = .ok w →
      ReadingBases view (dirOf path) w.bases {} (path :: visited) (.error e) →
      Reading view visited path (.error e)
  | read {visited visited' : List Path} {path : Path} {w : Written} {below : TsConfig} :
      path ∉ visited → readWritten view path = .ok w →
      ReadingBases view (dirOf path) w.bases {} (path :: visited) (.ok (below, visited')) →
      Reading view visited path (.ok ((ofWritten view path w).onTopOf below, visited'))

/-- What reading the files to extend comes to. -/
inductive ReadingBases (view : FileView) : Path → List Text → TsConfig → List Path →
    Except ConfigError (TsConfig × List Path) → Prop where
  | nil {dir : Path} {below : TsConfig} {visited : List Path} :
      ReadingBases view dir [] below visited (.ok (below, visited))
  | unresolved {dir : Path} {name : Text} {names : List Text} {below : TsConfig}
      {visited : List Path} {e : ConfigError} : resolveBase view dir name = .error e →
      ReadingBases view dir (name :: names) below visited (.error e)
  | failed {dir path : Path} {name : Text} {names : List Text} {below : TsConfig}
      {visited : List Path} {e : ConfigError} : resolveBase view dir name = .ok path →
      Reading view visited path (.error e) →
      ReadingBases view dir (name :: names) below visited (.error e)
  | cons {dir path : Path} {name : Text} {names : List Text} {below base : TsConfig}
      {visited visited' : List Path} {result : Except ConfigError (TsConfig × List Path)} :
      resolveBase view dir name = .ok path → Reading view visited path (.ok (base, visited')) →
      ReadingBases view dir names (base.onTopOf below) visited' result →
      ReadingBases view dir (name :: names) below visited result

end

/-- Whether files that were come by are different, in normal form and can be read. -/
structure Tracked (view : FileView) (visited : List Path) : Prop where
  nodup : visited.Nodup
  readable : ∀ p ∈ visited, p.normalize = p ∧ ∃ t, view.read p = .ok t

theorem normalize_withJson {p : Path} (h : p.normalize = p) :
    (withJson p).normalize = withJson p := by
  rw [withJson]
  split
  · exact h
  · rw [← h]
    exact Path.normalize_append (by decide) (by decide) p

theorem normalize_resolveBase {view : FileView} {dir q : Path} {name : Text}
    (h : resolveBase view dir name = .ok q) : q.normalize = q := by
  rw [resolveBase] at h
  split at h
  · dsimp only at h
    split at h
    · cases h
      refine normalize_withJson ?_
      rw [Path.resolve]
      split <;> exact Path.normalize_normalize _
    · cases h
  · split at h
    · cases h
      exact Path.normalize_normalize _
    · cases h

section Bound

variable {view : FileView}

theorem exists_read_of_readWritten {p : Path} {w : Written} (h : readWritten view p = .ok w) :
    ∃ t, view.read p = .ok t := by
  cases hread : view.read p with
  | error e =>
    rw [readWritten, hread] at h
    cases h
  | ok t => exact ⟨t, rfl⟩

theorem Tracked.cons {visited : List Path} {path : Path} {w : Written}
    (h : Tracked view visited) (hp : path.normalize = path) (hnew : path ∉ visited)
    (hw : readWritten view path = .ok w) : Tracked view (path :: visited) :=
  ⟨List.nodup_cons.mpr ⟨hnew, h.nodup⟩,
    List.forall_mem_cons.mpr ⟨⟨hp, exists_read_of_readWritten hw⟩, h.readable⟩⟩

theorem Tracked.any_same {visited : List Path} {path : Path} (h : Tracked view visited)
    (hp : path.normalize = path) : (visited.any fun p => p.same path) = true ↔ path ∈ visited := by
  rw [List.any_eq_true]
  constructor
  · rintro ⟨p, hmem, hsame⟩
    rw [← (h.readable p hmem).1, ← hp] at hsame
    rw [← hp, ← Path.normalize_eq_of_same hsame, (h.readable p hmem).1]
    exact hmem
  · exact fun hmem => ⟨path, hmem, Path.same_refl path⟩

/-- Whether a read follows the rules as long as enough files were come by before, and adds to
them. -/
def Follows (view : FileView) (read : Reader) (least : Nat) : Prop :=
  ∀ visited path, Tracked view visited → path.normalize = path → least ≤ visited.length →
    Reading view visited path (read visited path) ∧
      ∀ c visited', read visited path = .ok (c, visited') →
        Tracked view visited' ∧ visited.length ≤ visited'.length

theorem readBases_cons {read : Reader} {dir path : Path} {name : Text} {names : List Text}
    {below : TsConfig} {visited : List Path} (h : resolveBase view dir name = .ok path) :
    readBases view read dir (name :: names) below visited = (read visited path).bind fun found =>
      readBases view read dir names (found.1.onTopOf below) found.2 := by
  rw [readBases, h]
  rfl

theorem readBases_cons_error {read : Reader} {dir : Path} {name : Text} {names : List Text}
    {below : TsConfig} {visited : List Path} {e : ConfigError}
    (h : resolveBase view dir name = .error e) :
    readBases view read dir (name :: names) below visited = .error e := by
  rw [readBases, h]
  rfl

theorem Follows.readBases {read : Reader} {least : Nat} (hread : Follows view read least)
    (dir : Path) (names : List Text) (below : TsConfig) {visited : List Path}
    (hv : Tracked view visited) (hleast : least ≤ visited.length) :
    ReadingBases view dir names below visited (readBases view read dir names below visited) ∧
      ∀ c visited', readBases view read dir names below visited = .ok (c, visited') →
        Tracked view visited' ∧ visited.length ≤ visited'.length := by
  induction names generalizing below visited with
  | nil =>
    refine ⟨.nil, fun c visited' h => ?_⟩
    cases h
    exact ⟨hv, Nat.le_refl _⟩
  | cons name names ih =>
    cases hpath : resolveBase view dir name with
    | error e =>
      rw [readBases_cons_error hpath]
      exact ⟨.unresolved hpath, fun _ _ h => by cases h⟩
    | ok path =>
      obtain ⟨hreading, hlater⟩ := hread visited path hv (normalize_resolveBase hpath) hleast
      rw [readBases_cons hpath]
      cases hbase : read visited path with
      | error e =>
        rw [hbase] at hreading
        exact ⟨.failed hpath hreading, fun _ _ h => by cases h⟩
      | ok found =>
        obtain ⟨base, visited₁⟩ := found
        rw [hbase] at hreading
        obtain ⟨hv₁, hle⟩ := hlater base visited₁ hbase
        obtain ⟨hrest, hlater'⟩ := ih (base.onTopOf below) hv₁ (hleast.trans hle)
        refine ⟨.cons hpath hreading hrest, fun c visited' h => ?_⟩
        obtain ⟨hv', hle'⟩ := hlater' c visited' h
        exact ⟨hv', hle.trans hle'⟩

theorem readChain_visited {fuel : Nat} {visited : List Path} {path : Path}
    (hv : Tracked view visited) (hp : path.normalize = path) (h : path ∈ visited) :
    readChain view (fuel + 1) visited path = .error (.extendsCycle path) := by
  rw [readChain, if_pos ((hv.any_same hp).mpr h)]

theorem readChain_new {fuel : Nat} {visited : List Path} {path : Path}
    (hv : Tracked view visited) (hp : path.normalize = path) (h : path ∉ visited) :
    readChain view (fuel + 1) visited path = (readWritten view path).bind fun w =>
      (readBases view (readChain view fuel) (dirOf path) w.bases {} (path :: visited)).map
        fun found => ((ofWritten view path w).onTopOf found.1, found.2) := by
  rw [readChain, if_neg (mt (hv.any_same hp).mp h)]
  cases readWritten view path with
  | error e => rfl
  | ok w =>
    change (readBases view (readChain view fuel) (dirOf path) w.bases {} (path :: visited) >>=
      fun found => Except.ok ((ofWritten view path w).onTopOf found.1, found.2)) = _
    cases h : readBases view (readChain view fuel) (dirOf path) w.bases {} (path :: visited) <;>
      (rw [Except.bind, h]; rfl)

/-- With more fuel than there are files left to come by, a read follows the rules. -/
theorem follows_readChain (hview : view.Bounded) (fuel : Nat) :
    Follows view (readChain view fuel) (view.count + 1 - fuel) := by
  induction fuel with
  | zero =>
    intro visited path hv _ hleast
    -- more files would have been come by than there are
    have hle := hview visited hv.nodup hv.readable
    omega
  | succ fuel ih =>
    intro visited path hv hp hleast
    by_cases hmem : path ∈ visited
    · rw [readChain_visited hv hp hmem]
      exact ⟨.again hmem, fun _ _ h => by cases h⟩
    · rw [readChain_new hv hp hmem]
      cases hw : readWritten view path with
      | error e => exact ⟨.refused hmem hw, fun _ _ h => by cases h⟩
      | ok w =>
        have hlength : view.count + 1 - fuel ≤ (path :: visited).length := by
          rw [List.length_cons]
          omega
        obtain ⟨hbases, hlater⟩ := ih.readBases (dirOf path) w.bases {}
          (hv.cons hp hmem hw) hlength
        cases hresult : readBases view (readChain view fuel) (dirOf path) w.bases {}
            (path :: visited) with
        | error e =>
          rw [hresult] at hbases
          simp only [Except.bind, hresult]
          exact ⟨.failed hmem hw hbases, fun _ _ h => by cases h⟩
        | ok found =>
          obtain ⟨below, visited₁⟩ := found
          rw [hresult] at hbases
          obtain ⟨hv₁, hle⟩ := hlater below visited₁ hresult
          simp only [Except.bind, hresult]
          refine ⟨.read hmem hw hbases, fun c visited' h => ?_⟩
          cases h
          exact ⟨hv₁, (Nat.le_succ _).trans hle⟩

end Bound

/-! ## What was come by -/

/-- Whether the files that were come by are those from before and those that some routes lead
to, each of which is new and led to by one route only. -/
structure Explored (leads : List Nat → Path → Prop) (before after : List Path) : Prop where
  kept : before ⊆ after
  found : ∀ {route q}, leads route q → q ∈ after
  sound : ∀ {q}, q ∈ after → q ∈ before ∨ ∃ route, leads route q
  fresh : ∀ {route q}, leads route q → q ∉ before
  once : ∀ {route route' q}, leads route q → leads route' q → route' = route

/-- Whether nothing is amiss in the files that some routes lead to. -/
def Clear (view : FileView) (leads : List Nat → Path → Prop) : Prop :=
  ∀ route p e, leads route p → ¬ IsAmiss view p e

section Explored

variable {view : FileView} {visited visited₁ visited' : List Path}

theorem Explored.file {path : Path} {w : Written} (hnew : path ∉ visited)
    (hw : readWritten view path = .ok w)
    (h : Explored (LeadsAmong view (dirOf path) w.bases) (path :: visited) visited') :
    Explored (Leads view path) visited visited' where
  kept := fun q hq => h.kept (List.mem_cons_of_mem _ hq)
  found := by
    rintro (_ | ⟨i, route⟩) q hq
    · cases hq
      exact h.kept List.mem_cons_self
    · exact h.found ((leads_cons_iff hw).mp hq)
  sound := by
    intro q hq
    rcases h.sound hq with hmem | ⟨_ | ⟨i, route⟩, hroute⟩
    · rcases List.mem_cons.mp hmem with rfl | hmem
      · exact .inr ⟨[], .here⟩
      · exact .inl hmem
    · exact hroute.elim
    · exact .inr ⟨i :: route, (leads_cons_iff hw).mpr hroute⟩
  fresh := by
    rintro (_ | ⟨i, route⟩) q hq
    · cases hq
      exact hnew
    · exact fun hmem => h.fresh ((leads_cons_iff hw).mp hq) (List.mem_cons_of_mem _ hmem)
  once := by
    -- A route that is not empty leads to no file that was come by, so not to this one.
    have hback : ∀ {i route}, ¬ Leads view path (i :: route) path :=
      fun hq => h.fresh ((leads_cons_iff hw).mp hq) List.mem_cons_self
    rintro (_ | ⟨i, route⟩) (_ | ⟨i', route'⟩) q hq hq'
    · rfl
    · cases hq
      exact (hback hq').elim
    · cases hq'
      exact (hback hq).elim
    · exact h.once ((leads_cons_iff hw).mp hq) ((leads_cons_iff hw).mp hq')

theorem Explored.bases {dir path : Path} {name : Text} {names : List Text}
    (hpath : resolveBase view dir name = .ok path)
    (h : Explored (Leads view path) visited visited₁)
    (h' : Explored (LeadsAmong view dir names) visited₁ visited') :
    Explored (LeadsAmong view dir (name :: names)) visited visited' where
  kept := fun q hq => h'.kept (h.kept hq)
  found := by
    rintro (_ | ⟨_ | i, route⟩) q hq
    · exact hq.elim
    · exact h'.kept (h.found ((leadsAmong_cons_zero hpath).mp hq))
    · exact h'.found (leadsAmong_cons_succ.mp hq)
  sound := by
    intro q hq
    rcases h'.sound hq with hmem | ⟨_ | ⟨i, route⟩, hroute⟩
    · rcases h.sound hmem with hmem | ⟨route, hroute⟩
      · exact .inl hmem
      · exact .inr ⟨0 :: route, (leadsAmong_cons_zero hpath).mpr hroute⟩
    · exact hroute.elim
    · exact .inr ⟨(i + 1) :: route, leadsAmong_cons_succ.mpr hroute⟩
  fresh := by
    rintro (_ | ⟨_ | i, route⟩) q hq
    · exact hq.elim
    · exact h.fresh ((leadsAmong_cons_zero hpath).mp hq)
    · exact fun hmem => h'.fresh (leadsAmong_cons_succ.mp hq) (h.kept hmem)
  once := by
    -- what later names lead to is new, so the first name does not lead to it
    have hapart : ∀ {i route route' q}, LeadsAmong view dir names (i :: route) q →
        ¬ Leads view path route' q := fun hq hq' => h'.fresh hq (h.found hq')
    rintro (_ | ⟨_ | i, route⟩) (_ | ⟨_ | i', route'⟩) q hq hq'
    · exact hq.elim
    · exact hq.elim
    · exact hq.elim
    · exact hq'.elim
    · rw [h.once ((leadsAmong_cons_zero hpath).mp hq) ((leadsAmong_cons_zero hpath).mp hq')]
    · exact (hapart (leadsAmong_cons_succ.mp hq') ((leadsAmong_cons_zero hpath).mp hq)).elim
    · exact hq'.elim
    · exact (hapart (leadsAmong_cons_succ.mp hq) ((leadsAmong_cons_zero hpath).mp hq')).elim
    · have heq := h'.once (leadsAmong_cons_succ.mp hq) (leadsAmong_cons_succ.mp hq')
      rw [List.cons.injEq] at heq
      rw [heq.1, heq.2]

theorem Clear.file {path : Path} {w : Written} (hw : readWritten view path = .ok w)
    (hnames : ∀ name ∈ w.bases, ∃ q, resolveBase view (dirOf path) name = .ok q)
    (h : Clear view (LeadsAmong view (dirOf path) w.bases)) : Clear view (Leads view path) := by
  rintro (_ | ⟨i, route⟩) q e hq
  · cases hq
    rintro (hread | ⟨w', name, hw', hname, hbase⟩)
    · rw [hw] at hread
      cases hread
    · rw [hw] at hw'
      cases hw'
      obtain ⟨q, hq⟩ := hnames name hname
      rw [hq] at hbase
      cases hbase
  · exact h _ q e ((leads_cons_iff hw).mp hq)

theorem Clear.bases {dir path : Path} {name : Text} {names : List Text}
    (hpath : resolveBase view dir name = .ok path) (h : Clear view (Leads view path))
    (h' : Clear view (LeadsAmong view dir names)) :
    Clear view (LeadsAmong view dir (name :: names)) := by
  rintro (_ | ⟨_ | i, route⟩) q e hq
  · exact hq.elim
  · exact h route q e ((leadsAmong_cons_zero hpath).mp hq)
  · exact h' _ q e (leadsAmong_cons_succ.mp hq)

theorem explored_nil {dir : Path} : Explored (LeadsAmong view dir []) visited visited := by
  have hnone : ∀ {route q}, ¬ LeadsAmong view dir [] route q := by
    rintro (_ | ⟨i, route⟩) q h
    · exact h
    · obtain ⟨name, _, hname, -⟩ := h
      cases hname
  exact ⟨fun _ h => h, fun h => (hnone h).elim, .inl, fun h => (hnone h).elim,
    fun h => (hnone h).elim⟩

theorem clear_nil {dir : Path} : Clear view (LeadsAmong view dir []) := by
  rintro (_ | ⟨i, route⟩) q e h
  · exact h.elim
  · obtain ⟨name, _, hname, -⟩ := h
    cases hname

end Explored

/-! ## Why a read fails -/

/-- Whether a route leads to a file that was come by before, or that another route leads to as
well. -/
def Retraced (leads : List Nat → Path → Prop) (visited : List Path) (q : Path) : Prop :=
  ∃ route, leads route q ∧ (q ∈ visited ∨ ∃ route', route' ≠ route ∧ leads route' q)

/-- Whether an error tells of a file that is retraced, or of one in which something is amiss. -/
def Explains (view : FileView) (leads : List Nat → Path → Prop) (visited : List Path)
    (e : ConfigError) : Prop :=
  (∃ q, e = .extendsCycle q ∧ Retraced leads visited q) ∨
    ∃ route q, leads route q ∧ IsAmiss view q e

section Explains

variable {view : FileView} {visited visited₁ : List Path} {e : ConfigError}

theorem Explains.file {path : Path} {w : Written} (hw : readWritten view path = .ok w)
    (h : Explains view (LeadsAmong view (dirOf path) w.bases) (path :: visited) e) :
    Explains view (Leads view path) visited e := by
  rcases h with ⟨q, rfl, _ | ⟨i, route⟩, hroute, hq⟩ | ⟨_ | ⟨i, route⟩, q, hroute, hq⟩
  · exact hroute.elim
  · refine .inl ⟨q, rfl, i :: route, (leads_cons_iff hw).mpr hroute, ?_⟩
    rcases hq with hmem | ⟨_ | ⟨i', route'⟩, hne, hroute'⟩
    · rcases List.mem_cons.mp hmem with rfl | hmem
      · exact .inr ⟨[], by simp, .here⟩
      · exact .inl hmem
    · exact hroute'.elim
    · exact .inr ⟨_, hne, (leads_cons_iff hw).mpr hroute'⟩
  · exact hroute.elim
  · exact .inr ⟨_, q, (leads_cons_iff hw).mpr hroute, hq⟩

theorem Explains.base {dir path : Path} {name : Text} {names : List Text}
    (hpath : resolveBase view dir name = .ok path) (h : Explains view (Leads view path) visited e) :
    Explains view (LeadsAmong view dir (name :: names)) visited e := by
  rcases h with ⟨q, rfl, route, hroute, hq⟩ | ⟨route, q, hroute, hq⟩
  · refine .inl ⟨q, rfl, 0 :: route, (leadsAmong_cons_zero hpath).mpr hroute, ?_⟩
    rcases hq with hmem | ⟨route', hne, hroute'⟩
    · exact .inl hmem
    · exact .inr ⟨0 :: route', by simpa using hne, (leadsAmong_cons_zero hpath).mpr hroute'⟩
  · exact .inr ⟨0 :: route, q, (leadsAmong_cons_zero hpath).mpr hroute, hq⟩

/-- What was come by on the way to an earlier name was come by on another route. -/
theorem Explains.bases {dir path : Path} {name : Text} {names : List Text}
    (hpath : resolveBase view dir name = .ok path)
    (hbase : Explored (Leads view path) visited visited₁)
    (h : Explains view (LeadsAmong view dir names) visited₁ e) :
    Explains view (LeadsAmong view dir (name :: names)) visited e := by
  rcases h with ⟨q, rfl, _ | ⟨i, route⟩, hroute, hq⟩ | ⟨_ | ⟨i, route⟩, q, hroute, hq⟩
  · exact hroute.elim
  · refine .inl ⟨q, rfl, (i + 1) :: route, leadsAmong_cons_succ.mpr hroute, ?_⟩
    rcases hq with hmem | ⟨_ | ⟨i', route'⟩, hne, hroute'⟩
    · rcases hbase.sound hmem with hmem | ⟨route', hroute'⟩
      · exact .inl hmem
      · exact .inr ⟨0 :: route', by simp, (leadsAmong_cons_zero hpath).mpr hroute'⟩
    · exact hroute'.elim
    · exact .inr ⟨(i' + 1) :: route', by simpa using hne, leadsAmong_cons_succ.mpr hroute'⟩
  · exact hroute.elim
  · exact .inr ⟨(i + 1) :: route, q, leadsAmong_cons_succ.mpr hroute, hq⟩

end Explains

/-! ## What a read tells of routes -/

/-- A file that is read is come by with all that routes from it lead to, once each; otherwise the
error explains itself. -/
def Tells (view : FileView) (path : Path) (visited : List Path) :
    Except ConfigError (TsConfig × List Path) → Prop
  | .ok (_, visited') =>
    Explored (Leads view path) visited visited' ∧ Clear view (Leads view path)
  | .error e => Explains view (Leads view path) visited e

/-- The same for the files that names stand for, if they stand for files. -/
def TellsAmong (view : FileView) (dir : Path) (names : List Text) (visited : List Path) :
    Except ConfigError (TsConfig × List Path) → Prop
  | .ok (_, visited') => (Explored (LeadsAmong view dir names) visited visited' ∧
      Clear view (LeadsAmong view dir names)) ∧
      ∀ name ∈ names, ∃ q, resolveBase view dir name = .ok q
  | .error e => Explains view (LeadsAmong view dir names) visited e ∨
      ∃ name ∈ names, resolveBase view dir name = .error e

theorem TellsAmong.cons {view : FileView} {dir path : Path} {name : Text} {names : List Text}
    {visited visited₁ : List Path} {c : TsConfig}
    {result : Except ConfigError (TsConfig × List Path)}
    (hpath : resolveBase view dir name = .ok path)
    (hbase : Tells view path visited (.ok (c, visited₁)))
    (h : TellsAmong view dir names visited₁ result) :
    TellsAmong view dir (name :: names) visited result := by
  obtain ⟨hexplored, hclear⟩ := hbase
  cases result with
  | error e =>
    rcases h with h | ⟨name', hname, h⟩
    · exact .inl (h.bases hpath hexplored)
    · exact .inr ⟨name', List.mem_cons_of_mem _ hname, h⟩
  | ok found =>
    obtain ⟨c', visited'⟩ := found
    obtain ⟨⟨hexplored', hclear'⟩, hnames⟩ := h
    exact ⟨⟨hexplored.bases hpath hexplored', hclear.bases hpath hclear'⟩,
      List.forall_mem_cons.mpr ⟨⟨path, hpath⟩, hnames⟩⟩

section Tells

variable {view : FileView}

mutual

theorem Reading.tells : ∀ {visited : List Path} {path : Path}
    {result : Except ConfigError (TsConfig × List Path)}, Reading view visited path result →
    Tells view path visited result
  | _, path, _, .again hmem => .inl ⟨path, rfl, [], .here, .inl hmem⟩
  | _, path, _, .refused _ hread => .inr ⟨[], path, .here, .inl hread⟩
  | _, path, _, .failed _ hw hbases => by
    rcases hbases.tells with h | ⟨name, hname, hbase⟩
    · exact h.file hw
    · exact .inr ⟨[], path, .here, .inr ⟨_, name, hw, hname, hbase⟩⟩
  | _, _, _, .read hnew hw hbases => by
    obtain ⟨⟨hexplored, hclear⟩, hnames⟩ := hbases.tells
    exact ⟨hexplored.file hnew hw, hclear.file hw hnames⟩

theorem ReadingBases.tells : ∀ {dir : Path} {names : List Text} {below : TsConfig}
    {visited : List Path} {result : Except ConfigError (TsConfig × List Path)},
    ReadingBases view dir names below visited result → TellsAmong view dir names visited result
  | _, _, _, _, _, .nil => ⟨⟨explored_nil, clear_nil⟩, by simp⟩
  | _, _, _, _, _, .unresolved hbase => .inr ⟨_, List.mem_cons_self, hbase⟩
  | _, _, _, _, _, .failed hpath hreading => .inl (Explains.base hpath hreading.tells)
  | _, _, _, _, _, .cons hpath hreading hrest => .cons hpath hreading.tells hrest.tells

end

end Tells

/-! ## Whole reads -/

/-- What reading a file comes to by the rules is what `read` gives. -/
theorem reading_of_read {view : FileView} (hview : view.Bounded) (path : Path) :
    ∃ result, Reading view [] path.normalize result ∧ read view path = result.map (·.1) := by
  have hstart : Tracked view [] := ⟨List.nodup_nil, by simp⟩
  have hfollows := follows_readChain hview (view.count + 2) [] path.normalize hstart
    (Path.normalize_normalize path) (by simp)
  exact ⟨_, hfollows.1, rfl⟩

end TsConfig

open TsConfig in
/-- Reading a configuration file comes to an end.  A cycle is reported only of a file that a
route comes by twice or that two routes lead to, a file is read just if there is no such file
and nothing is amiss in any file, and if nothing is amiss then only a cycle can be reported. -/
theorem TsConfig.read_exact {view : FileView} (hview : view.Bounded) (path : Path) :
    (∃ result, Reading view [] path.normalize result ∧ read view path = result.map (·.1)) ∧
    (∀ q, read view path = .error (.extendsCycle q) →
      OnCycle view path.normalize q ∨ Shared view path.normalize q) ∧
    ((∃ c, read view path = .ok c) ↔ Legible view path.normalize ∧
      ∀ q, ¬ (OnCycle view path.normalize q ∨ Shared view path.normalize q)) ∧
    (Legible view path.normalize → ∀ e, read view path = .error e → ∃ q, e = .extendsCycle q) := by
  obtain ⟨result, hreading, hread⟩ := reading_of_read hview path
  have htells := hreading.tells
  refine ⟨⟨result, hreading, hread⟩, ?_⟩
  rw [hread]
  cases result with
  | error e =>
    have hretraced : ∀ {q}, Retraced (Leads view path.normalize) [] q →
        OnCycle view path.normalize q ∨ Shared view path.normalize q := by
      rintro q ⟨route, hroute, hmem | ⟨route', hne, hroute'⟩⟩
      · cases hmem
      · exact onCycle_or_shared.mpr ⟨route, route', hne, hroute, hroute'⟩
    refine ⟨fun q h => ?_, ⟨fun ⟨c, h⟩ => (nomatch h), fun ⟨hlegible, hnone⟩ => ?_⟩,
      fun hlegible e' h => ?_⟩
    · cases h
      rcases htells with ⟨q', heq, hq⟩ | ⟨route, p, -, hamiss⟩
      · cases heq
        exact hretraced hq
      · exact (not_isAmiss_extendsCycle hamiss).elim
    · rcases htells with ⟨q, -, hq⟩ | ⟨route, p, hroute, hamiss⟩
      · exact (hnone q (hretraced hq)).elim
      · exact (hlegible route p e hroute hamiss).elim
    · cases h
      rcases htells with ⟨q, heq, -⟩ | ⟨route, p, hroute, hamiss⟩
      · exact ⟨q, heq⟩
      · exact (hlegible route p e hroute hamiss).elim
  | ok found =>
    obtain ⟨c, visited⟩ := found
    obtain ⟨hexplored, hclear⟩ := htells
    refine ⟨fun q h => (nomatch h), ⟨fun _ => ⟨hclear, fun q hq => ?_⟩, fun _ => ⟨c, rfl⟩⟩,
      fun _ e h => (nomatch h)⟩
    obtain ⟨route, route', hne, hroute, hroute'⟩ := onCycle_or_shared.mp hq
    exact hne (hexplored.once hroute hroute')

namespace TsConfig

/-! ## Two files that extend each other -/

namespace Round

/-- `a.json` and `b.json` extend each other, and `tsconfig.json` extends a third file and then
the first of the two. -/
def disk : Disk where
  store := ([ ("/project/tsconfig.json", "\x7b\"extends\":[\"./plain\",\"../a\"]\x7d"),
    ("/project/plain.json", "\x7b\x7d"),
    ("/a.json", "\x7b\"extends\":\"./b.json\"\x7d"),
    ("/b.json", "\x7b\"extends\":\"/./a\"\x7d") ] : List (Text × Text)).foldl
      (fun s f => s.add ⟨f.1⟩ f.2) {}

def start : Path := Path.ofString "/project/tsconfig.json"

end Round

open Round in
theorem read_exact_round : disk.view.Bounded ∧
    read disk.view start = .error (.extendsCycle (Path.ofString "/a.json")) ∧
    (OnCycle disk.view start.normalize (Path.ofString "/a.json") ∨
      Shared disk.view start.normalize (Path.ofString "/a.json")) := by
  have hread : read disk.view start = .error (.extendsCycle (Path.ofString "/a.json")) := by
    decide +kernel
  exact ⟨disk.bounded_view, hread, (read_exact disk.bounded_view start).2.1 _ hread⟩

/-! ## A file that is extended twice -/

namespace Twice

/-- `tsconfig.json` extends `base.json` under two spellings, and this extends nothing. -/
def disk : Disk where
  store := ([ ("/tsconfig.json", "\x7b\"extends\":[\"./base\",\"./base.json\"]\x7d"),
    ("/base.json", "\x7b\x7d") ] : List (Text × Text)).foldl (fun s f => s.add ⟨f.1⟩ f.2) {}

def start : Path := Path.ofString "/tsconfig.json"

def base : Path := Path.ofString "/base.json"

theorem not_extends_base {i : Nat} {q : Path} : ¬ Extends disk.view base i q := by
  rintro ⟨w, name, hw, hname, -⟩
  have hbases : (readWritten disk.view base).toOption.map Written.bases = some [] := by
    decide +kernel
  rw [hw] at hbases
  rw [Option.some.inj hbases] at hname
  cases hname

theorem eq_base_of_extends_start {i : Nat} {q : Path} (h : Extends disk.view start i q) :
    q = base := by
  obtain ⟨w, name, hw, hname, hq⟩ := h
  have hbases : (readWritten disk.view start).toOption.map Written.bases =
      some (["./base", "./base.json"] : List Text) := by
    decide +kernel
  have hresolve : ∀ name ∈ (["./base", "./base.json"] : List Text),
      resolveBase disk.view (dirOf start) name = .ok base := by
    decide +kernel
  rw [hw] at hbases
  have hmem := List.mem_of_getElem? hname
  rw [Option.some.inj hbases] at hmem
  rw [hresolve name hmem] at hq
  exact (Except.ok.inj hq).symm

theorem eq_nil_of_leads_base {route : List Nat} {q : Path} (h : Leads disk.view base route q) :
    route = [] ∧ q = base := by
  cases h with
  | here => exact ⟨rfl, rfl⟩
  | step hstep _ => exact (not_extends_base hstep).elim

end Twice

open Twice in
/-- The second mention of a file is taken for a cycle, though nothing extends itself. -/
theorem not_always_onCycle :
    read disk.view start = .error (.extendsCycle base) ∧
      ∀ q, ¬ OnCycle disk.view start.normalize q := by
  refine ⟨by decide +kernel, ?_⟩
  have hstart : start.normalize = start := by decide
  rw [hstart]
  rintro q ⟨route, round, hround, hroute, hq⟩
  cases hroute with
  | here =>
    cases hq with
    | here => exact hround rfl
    | step hstep hrest =>
      rw [eq_base_of_extends_start hstep] at hrest
      exact absurd (eq_nil_of_leads_base hrest).2 (by decide)
  | step hstep hrest =>
    rw [eq_base_of_extends_start hstep] at hrest
    rw [(eq_nil_of_leads_base hrest).2] at hq
    exact hround (eq_nil_of_leads_base hq).1

end TsConfig
end TestTransform

/-
The walk over imports goes breadth first and comes to an end.

`Walks` is the walk without a bound: it takes files from the queue until the queue is empty.
The walk with a bound does the same, whatever engine answers, since no question changes what
is answered later.  What it has found is, at any time, what the processed files import, each
module where it is first named (`InOrder`).  Two things follow at the end: the result lists
the imports of the start, then those of the first module found, then those of the second,
and so on; and the modules that are reached in at most `n` steps stand before all others.
-/
import TestTransform.Proofs.Compiler.Modules
import TestTransform.Proofs.Compiler.Verdict

namespace TestTransform
namespace Closure

variable {σ : Type} {imports : Path → List Path} {start file : Path}
  {done queue found : List Path}

/-! ## The walk to its end -/

/-- The walk goes on until the queue is empty, and ends with what was found by then. -/
inductive Walks (resolve : σ → Path → List Path × σ) (start : Path) :
    List Path → List Path → σ → List Path × σ → Prop where
  | done (found : List Path) (s : σ) : Walks resolve start [] found s (found, s)
  | next {file : Path} {queue found : List Path} {s : σ} {outcome : List Path × σ} :
      Walks resolve start (queue ++ addNew start found (resolve s file).1)
        (found ++ addNew start found (resolve s file).1) (resolve s file).2 outcome →
      Walks resolve start (file :: queue) found s outcome

/-! ## Orders -/

/-- Whether the walk from a file goes on at a module in normal form. -/
def goesOn (start p : Path) : Bool := p != start && !p.inNodeModules

/-- The imports of a file that the walk follows, in normal form. -/
def followed (imports : Path → List Path) (start file : Path) : List Path :=
  ((imports file).map Path.normalize).filter (goesOn start)

/-- What a file reaches by a number of imports, at most, that do not enter `node_modules`. -/
inductive Within (imports : Path → List Path) (start : Path) : Nat → Path → Prop where
  | start (n : Nat) : Within imports start n start
  | step {n : Nat} {p m : Path} : Within imports start n p → m ∈ imports p →
      m.normalize.inNodeModules = false → Within imports start (n + 1) m.normalize

/-- Whether a list holds exactly the other files that a file reaches outside `node_modules`,
each once and breadth first: the nearer files are an initial part of the list, and the files
are in the order in which they are first named by the file and, in turn, by those of the
list. -/
structure IsBreadthFirst (imports : Path → List Path) (start : Path) (modules : List Path) :
    Prop extends IsClosure imports start modules where
  outside : ∀ q ∈ modules, q.inNodeModules = false
  nearer : ∀ n, ∃ near, near <+: modules ∧
    ∀ q, q ∈ near ↔ Within imports start n q ∧ q ≠ start
  queued : modules = ((start :: modules).flatMap (followed imports start)).eraseDups

theorem goesOn_iff {p : Path} : goesOn start p = true ↔ p ≠ start ∧ p.inNodeModules = false := by
  rw [goesOn, Bool.and_eq_true, bne_iff_ne, Bool.not_eq_true']

theorem mem_followed {q : Path} :
    q ∈ followed imports start file ↔ Imports imports file q ∧ q ≠ start := by
  rw [followed, List.mem_filter, List.mem_map, goesOn_iff]
  constructor
  · rintro ⟨⟨m, hm, rfl⟩, hne, hn⟩
    exact ⟨⟨m, hm, rfl, hn⟩, hne⟩
  · rintro ⟨⟨m, hm, rfl, hn⟩, hne⟩
    exact ⟨⟨m, hm, rfl⟩, hne, hn⟩

/-- One step further lies what the files import that are reached so far. -/
theorem within_succ_iff {n : Nat} {q : Path} : Within imports start (n + 1) q ↔
    q = start ∨ ∃ p, Within imports start n p ∧ Imports imports p q := by
  constructor
  · intro h
    cases h with
    | start => exact .inl rfl
    | @step _ p m hp hm hn => exact .inr ⟨p, hp, m, hm, rfl, hn⟩
  · rintro (rfl | ⟨p, hp, m, hm, rfl, hn⟩)
    · exact .start _
    · exact .step hp hm hn

theorem eq_start_of_within_zero {q : Path} (h : Within imports start 0 q) : q = start := by
  cases h
  rfl

/-! ## First occurrences -/

theorem removeAll_congr {xs ys zs : List Path} (h : ∀ p, p ∈ ys ↔ p ∈ zs) :
    xs.removeAll ys = xs.removeAll zs := by
  refine List.filter_congr fun p _ => ?_
  rw [Bool.not_inj_iff, Bool.eq_iff_iff, List.elem_iff, List.elem_iff, h]

theorem removeAll_concat (xs ys : List Path) (p : Path) :
    xs.removeAll (ys ++ [p]) = (xs.removeAll ys).filter fun q => !q == p := by
  rw [List.removeAll, List.removeAll, List.filter_filter]
  refine List.filter_congr fun q _ => ?_
  rw [List.elem_eq_contains, List.elem_eq_contains, List.contains_append, Bool.not_or,
    Bool.and_comm, List.contains_cons, List.contains_nil, Bool.or_false]

theorem cons_removeAll_of_mem {p : Path} {ys : List Path} (h : p ∈ ys) (xs : List Path) :
    (p :: xs).removeAll ys = xs.removeAll ys :=
  List.filter_cons_of_neg (by simpa using h)

theorem cons_removeAll_of_not_mem {p : Path} {ys : List Path} (h : p ∉ ys) (xs : List Path) :
    (p :: xs).removeAll ys = p :: xs.removeAll ys :=
  List.filter_cons_of_pos (by simpa using h)

/-- What is new of a file's imports are the first occurrences of what was not found yet. -/
theorem addNew_eq (hs : start.normalize = start) (hf : ∀ q ∈ found, q.normalize = q)
    (file : Path) : addNew start found (imports file) =
      ((followed imports start file).removeAll found).eraseDups := by
  rw [followed]
  generalize imports file = ms
  induction ms generalizing found with
  | nil => rfl
  | cons m ms ih =>
    rw [addNew, List.map_cons]
    split
    · rename_i h
      rw [ih hf]
      by_cases hgo : goesOn start m.normalize = true
      · obtain ⟨hne, hn⟩ := goesOn_iff.mp hgo
        have hmem : m.normalize ∈ found := by
          rcases (skip_iff hs hf m).mp h with h | h | h
          · exact absurd h hne
          · rw [hn] at h
            cases h
          · exact h
        rw [List.filter_cons_of_pos hgo, cons_removeAll_of_mem hmem]
      · rw [List.filter_cons_of_neg hgo]
    · rename_i h
      rw [skip_iff hs hf, not_or, not_or, Bool.not_eq_true] at h
      have hgo : goesOn start m.normalize = true := goesOn_iff.mpr ⟨h.1, h.2.1⟩
      rw [ih (normal_concat hf m), List.filter_cons_of_pos hgo, cons_removeAll_of_not_mem h.2.2,
        List.eraseDups_cons, removeAll_concat]

/-! ## Progress in order -/

/-- The walk has found what the processed files import, each module where it is first
named. -/
structure InOrder (imports : Path → List Path) (start : Path) (done queue found : List Path) :
    Prop extends Progress imports start done queue found where
  firsts : found = (done.flatMap (followed imports start)).eraseDups

namespace InOrder

theorem begin (imports : Path → List Path) (start : Path) :
    InOrder imports start [] [start] [] :=
  ⟨Progress.begin imports start, rfl⟩

theorem next (g : InOrder imports start done (file :: queue) found)
    (hs : start.normalize = start) :
    InOrder imports start (done ++ [file]) (queue ++ addNew start found (imports file))
      (found ++ addNew start found (imports file)) := by
  refine ⟨g.toProgress.next hs, ?_⟩
  have hmem : ∀ p, p ∈ found ↔ p ∈ done.flatMap (followed imports start) := by
    intro p
    rw [g.firsts, List.mem_eraseDups]
  rw [addNew_eq hs (g.normal hs), removeAll_congr hmem, List.flatMap_append,
    List.flatMap_singleton, List.eraseDups_append, ← g.firsts]

theorem queued (g : InOrder imports start done [] found) :
    found = ((start :: found).flatMap (followed imports start)).eraseDups := by
  have horder : start :: found = done := by simpa using g.order
  rw [horder]
  exact g.firsts

/-- The files within a number of steps are an initial part of those found.  This is by
induction on the number: what these files import comes first. -/
theorem nearer (g : InOrder imports start done [] found) (n : Nat) :
    ∃ near, near <+: found ∧ ∀ q, q ∈ near ↔ Within imports start n q ∧ q ≠ start := by
  induction n with
  | zero =>
    refine ⟨[], List.nil_prefix, fun q => ⟨fun hq => absurd hq List.not_mem_nil, ?_⟩⟩
    rintro ⟨hq, hne⟩
    exact absurd (eq_start_of_within_zero hq) hne
  | succ n ih =>
    obtain ⟨near, ⟨rest, hrest⟩, hnear⟩ := ih
    refine ⟨((start :: near).flatMap (followed imports start)).eraseDups, ?_, fun q => ?_⟩
    · have happend : start :: found = (start :: near) ++ rest := by
        rw [List.cons_append, hrest]
      rw [g.queued, happend, List.flatMap_append, List.eraseDups_append]
      exact List.prefix_append _ _
    · have hreached : ∀ p, p ∈ start :: near ↔ Within imports start n p := by
        intro p
        rw [List.mem_cons, hnear]
        by_cases hp : p = start
        · simp [hp, Within.start]
        · simp [hp]
      rw [List.mem_eraseDups, List.mem_flatMap, within_succ_iff]
      constructor
      · rintro ⟨p, hp, hq⟩
        obtain ⟨himports, hne⟩ := mem_followed.mp hq
        exact ⟨.inr ⟨p, (hreached p).mp hp, himports⟩, hne⟩
      · rintro ⟨rfl | ⟨p, hp, himports⟩, hne⟩
        · exact absurd rfl hne
        · exact ⟨p, (hreached p).mpr hp, mem_followed.mpr ⟨himports, hne⟩⟩

theorem outside (g : InOrder imports start done queue found) :
    ∀ q ∈ found, q.inNodeModules = false := by
  intro q hq
  obtain ⟨hreaches, hne⟩ := g.sound q hq
  obtain ⟨p, m, -, -, hn⟩ := hreaches.imported hne
  exact hn

theorem isBreadthFirst (g : InOrder imports start done [] found) :
    IsBreadthFirst imports start found :=
  { nodup := g.nodup
    mem_iff := fun q => ⟨g.sound q, fun ⟨h, hne⟩ => (g.complete h).resolve_left hne⟩
    outside := g.outside
    nearer := g.nearer
    queued := g.queued }

end InOrder

/-! ## The walk with a bound -/

section Walk

variable {P : σ → Prop} {resolve : σ → Path → List Path × σ} {bound : Nat} {s : σ}

/-- Enough fuel leads to where the walk ends without it. -/
theorem walk_walks
    (h : ∀ s file, P s → (resolve s file).1 = imports file ∧ P (resolve s file).2)
    (hs : start.normalize = start) (hb : IsBound imports bound) (fuel : Nat) (hP : P s)
    (g : Progress imports start done queue found) (hfuel : bound + 1 ≤ done.length + fuel) :
    Walks resolve start queue found s (walk resolve start fuel queue found s) := by
  induction fuel generalizing done queue found s with
  | zero =>
    rw [g.queue_eq_nil hb hfuel]
    exact .done found s
  | succ fuel ih =>
    cases queue with
    | nil => exact .done found s
    | cons file queue =>
      obtain ⟨himports, hnext⟩ := h s file hP
      have hnew := g.next hs
      rw [← himports] at hnew
      refine .next (ih hnext hnew ?_)
      rw [List.length_append, List.length_singleton]
      omega

theorem Walks.inOrder {outcome : List Path × σ} (w : Walks resolve start queue found s outcome)
    (h : ∀ s file, P s → (resolve s file).1 = imports file ∧ P (resolve s file).2)
    (hs : start.normalize = start) (hP : P s) (g : InOrder imports start done queue found) :
    ∃ done', InOrder imports start done' [] outcome.1 := by
  induction w generalizing done with
  | done found s => exact ⟨done, g⟩
  | @next file queue found s outcome _ ih =>
    obtain ⟨himports, hnext⟩ := h s file hP
    have hnew := g.next hs
    rw [← himports] at hnew
    exact ih hnext hnew

/-- If the imports found are always the same, and there is a bound on them, the walk comes to
its end and has found what is reached, breadth first. -/
theorem of_breadthFirst
    (h : ∀ s file, P s → (resolve s file).1 = imports file ∧ P (resolve s file).2)
    (hs : start.normalize = start) (hb : IsBound imports bound) (hP : P s) :
    Walks resolve start [start] [] s (of resolve bound start s) ∧
      IsBreadthFirst imports start (of resolve bound start s).1 := by
  have hwalks := walk_walks h hs hb (bound + 2) hP (Progress.begin imports start) (by simp)
  obtain ⟨done, g⟩ := hwalks.inOrder h hs hP (InOrder.begin imports start)
  exact ⟨hwalks, g.isBreadthFirst⟩

end Walk
end Closure

namespace LanguageCompiler
namespace Session

variable {s s' : Session}

/-! ## Imports as an engine tells them -/

/-- The imports of a file, as the engine of a session tells them. -/
def imports (s : Session) (file : Path) : List Path := (s.ask Engine.modulesOf file).1

theorem imports_scripted {e : Scripted.Engine} (he : s.world.engine = .scripted e) (file : Path) :
    s.imports file = Scripted.Engine.look e.modules file := by
  have hservice : s.service.engine = .scripted e := he
  simp only [imports, ask, Engine.modulesOf, Engine.dispatch, hservice]
  rfl

theorem imports_miniature (hm : s.world.engine.IsMiniature) : s.imports = s.picture.imports :=
  funext fun file => ask_modulesOf hm file

/-- Questions do not change what is imported. -/
theorem Widens.imports_eq (w : Widens s s') : s'.imports = s.imports := by
  have halike := w.engine
  cases he : s.world.engine with
  | miniature e =>
    cases he' : s'.world.engine with
    | scripted e' =>
      rw [he, he'] at halike
      exact halike.elim
    | miniature e' =>
      rw [imports_miniature (by rw [he']; trivial), imports_miniature (by rw [he]; trivial),
        picture, picture, Surroundings.view, Surroundings.view, w.disk]
      exact congrArg Picture.imports w.host.picture_eq
  | scripted e =>
    cases he' : s'.world.engine with
    | miniature e' =>
      rw [he, he'] at halike
      exact halike.elim
    | scripted e' =>
      rw [he, he'] at halike
      have htable : e'.modules = e.modules := (congrArg Scripted.Engine.modules halike.symm :)
      funext file
      rw [imports_scripted he', imports_scripted he, htable]

/-- All imports are files in the picture, or stand in the table. -/
theorem isBound_asked (s : Session) : Closure.IsBound s.imports s.bound := by
  cases he : s.world.engine with
  | miniature e =>
    have hm : s.world.engine.IsMiniature := by
      rw [he]
      trivial
    rw [imports_miniature hm]
    exact isBound_imports hm
  | scripted e =>
    have hb : s.bound = (e.modules.flatMap (·.2)).length := by
      rw [bound, Engine.moduleBound, show s.service.engine = .scripted e from he]
      rfl
    intro l hd hl
    have hsubset : l ⊆ (e.modules.flatMap (·.2)).map Path.normalize := by
      intro q hq
      obtain ⟨p, m, hm, rfl, -⟩ := hl q hq
      rw [imports_scripted he, Scripted.Engine.look] at hm
      refine List.mem_map.mpr ⟨m, List.mem_flatMap.mpr ?_, rfl⟩
      cases hfind : e.modules.find? (fun entry => entry.1 == p.text) with
      | none =>
        rw [hfind] at hm
        exact absurd hm List.not_mem_nil
      | some entry =>
        rw [hfind] at hm
        exact ⟨entry, List.mem_of_find?_eq_some hfind, hm⟩
    rw [hb]
    simpa using (hd.subperm hsubset).length_le

/-- Whichever engine there is, the walk over the imports of a file comes to its end, and its
result holds exactly the other files outside `node_modules` that the file reaches through such
files, each once and breadth first. -/
theorem collectModules_breadthFirst (s : Session) {file : Path} (hf : file.normalize = file) :
    Closure.Walks (ask Engine.modulesOf) file [file] [] s (s.collectModules file) ∧
      Closure.IsBreadthFirst s.imports file (s.collectModules file).1 := by
  refine Closure.of_breadthFirst (P := Widens s) ?_ hf (isBound_asked s) (Widens.refl s)
  intro t p hw
  exact ⟨congrFun hw.imports_eq p, hw.trans (ask_widens Engine.modulesOf_keeps t p)⟩

namespace Cyclic

/-- Files that import each other and themselves, one another twice, and a package. -/
def modules : List (Text × List Path) :=
  [ ("/a.ts", [⟨"/c.ts"⟩, ⟨"/b.ts"⟩, ⟨"/a.ts"⟩, ⟨"/node_modules/d.ts"⟩]),
    ("/b.ts", [⟨"/f.ts"⟩, ⟨"/a.ts"⟩, ⟨"/b.ts"⟩]),
    ("/c.ts", [⟨"/e.ts"⟩, ⟨"/./b.ts"⟩, ⟨"/e.ts"⟩]),
    ("/e.ts", [⟨"/c.ts"⟩]),
    ("/node_modules/d.ts", [⟨"/g.ts"⟩]) ]

def session : Session :=
  let world : Surroundings := { disk := {}, engine := .scripted { version := "1", modules } }
  ⟨create world.view default, world⟩

end Cyclic

/-- Modules that import each other: the imports of the start come first, then theirs. -/
theorem collectModules_breadthFirst_cyclic :
    (Cyclic.session.collectModules ⟨"/a.ts"⟩).1 =
        [⟨"/c.ts"⟩, ⟨"/b.ts"⟩, ⟨"/e.ts"⟩, ⟨"/f.ts"⟩] ∧
      Closure.IsBreadthFirst Cyclic.session.imports ⟨"/a.ts"⟩
        [⟨"/c.ts"⟩, ⟨"/b.ts"⟩, ⟨"/e.ts"⟩, ⟨"/f.ts"⟩] := by
  have hmodules : (Cyclic.session.collectModules ⟨"/a.ts"⟩).1 =
      [⟨"/c.ts"⟩, ⟨"/b.ts"⟩, ⟨"/e.ts"⟩, ⟨"/f.ts"⟩] := by
    decide +kernel
  have hnormal : Path.normalize ⟨"/a.ts"⟩ = ⟨"/a.ts"⟩ := by decide +kernel
  refine ⟨hmodules, ?_⟩
  rw [← hmodules]
  exact (collectModules_breadthFirst Cyclic.session hnormal).2

end Session
end LanguageCompiler
end TestTransform

/-
The walk over imports finds what can be reached, and each module once.

The walk is compared with reachability in three steps.  Its answer depends on the imports
alone, whatever the state does meanwhile.  What it has found so far, with the start in
front, is always what it has processed followed by the queue; so at an empty queue the
imports of all that was found have been found.  And it comes to an empty queue, because
what is found are different modules, of which there are no more than the bound says.
-/
import TestTransform.Compiler.Closure
import TestTransform.Proofs.Path.Normal

namespace TestTransform
namespace Closure

variable {σ : Type}

/-! ## The state beside the walk -/

/-- What finding a file's imports preserves, the walk preserves. -/
theorem walk_preserves {P : σ → Prop} {resolve : σ → Path → List Path × σ}
    (h : ∀ s file, P s → P (resolve s file).2) (start : Path) (fuel : Nat)
    (queue found : List Path) (s : σ) (hs : P s) :
    P (walk resolve start fuel queue found s).2 := by
  induction fuel generalizing queue found s with
  | zero => exact hs
  | succ fuel ih =>
    cases queue with
    | nil => exact hs
    | cons file queue => exact ih _ _ _ (h s file hs)

theorem of_preserves {P : σ → Prop} {resolve : σ → Path → List Path × σ}
    (h : ∀ s file, P s → P (resolve s file).2) (bound : Nat) (start : Path) (s : σ) (hs : P s) :
    P (of resolve bound start s).2 :=
  walk_preserves h start _ _ _ s hs

/-- The walk over imports that are known beforehand. -/
def ofImports (imports : Path → List Path) (bound : Nat) (start : Path) : List Path :=
  (of (fun (u : Unit) file => (imports file, u)) bound start ()).1

/-- If the imports found are always the same, nothing else of the state matters. -/
theorem of_eq_ofImports {P : σ → Prop} {resolve : σ → Path → List Path × σ}
    {imports : Path → List Path}
    (h : ∀ s file, P s → (resolve s file).1 = imports file ∧ P (resolve s file).2)
    (bound : Nat) (start : Path) (s : σ) (hs : P s) :
    (of resolve bound start s).1 = ofImports imports bound start := by
  have hwalk : ∀ fuel queue found s, P s →
      (walk resolve start fuel queue found s).1 =
        (walk (fun (u : Unit) file => (imports file, u)) start fuel queue found ()).1 := by
    intro fuel
    induction fuel with
    | zero => exact fun _ _ _ _ => rfl
    | succ fuel ih =>
      intro queue found s hs
      cases queue with
      | nil => rfl
      | cons file queue =>
        obtain ⟨himports, hnext⟩ := h s file hs
        simp only [walk]
        rw [ih _ _ _ hnext, himports]
  exact hwalk _ _ _ s hs

/-! ## Reachability -/

/-- What a file reaches by imports that do not enter `node_modules`, the file itself
included. -/
inductive Reaches (imports : Path → List Path) (start : Path) : Path → Prop where
  | start : Reaches imports start start
  | step {p m : Path} : Reaches imports start p → m ∈ imports p →
      m.normalize.inNodeModules = false → Reaches imports start m.normalize

/-- Whether a list holds exactly the other files that a file reaches, each once. -/
structure IsClosure (imports : Path → List Path) (start : Path) (modules : List Path) : Prop where
  nodup : modules.Nodup
  mem_iff : ∀ q, q ∈ modules ↔ Reaches imports start q ∧ q ≠ start

/-- The modules that a file imports, as the walk takes them: in normal form and without
those in `node_modules`. -/
def Imports (imports : Path → List Path) (p q : Path) : Prop :=
  ∃ m ∈ imports p, m.normalize = q ∧ q.inNodeModules = false

theorem Imports.normal {imports : Path → List Path} {p q : Path} (h : Imports imports p q) :
    q.normalize = q := by
  obtain ⟨m, -, rfl, -⟩ := h
  exact Path.normalize_normalize m

theorem Reaches.normal {imports : Path → List Path} {start p : Path}
    (hs : start.normalize = start) (h : Reaches imports start p) : p.normalize = p := by
  cases h with
  | start => exact hs
  | step _ _ _ => exact Path.normalize_normalize _

/-! ## What one file adds -/

theorem same_eq_true_iff {p q : Path} (hp : p.normalize = p) (hq : q.normalize = q) :
    p.same q = true ↔ p = q := by
  constructor
  · intro h
    rw [← hp, ← hq, Path.normalize_congr h]
  · rintro rfl
    exact Path.same_refl p

theorem any_same_iff {p : Path} {found : List Path} (hp : p.normalize = p)
    (hf : ∀ q ∈ found, q.normalize = q) : found.any p.same = true ↔ p ∈ found := by
  rw [List.any_eq_true]
  constructor
  · rintro ⟨q, hq, h⟩
    rwa [(same_eq_true_iff hp (hf q hq)).mp h]
  · exact fun h => ⟨p, h, Path.same_refl p⟩

section AddNew

variable {start : Path}

/-- What `addNew` passes over, for paths in normal form. -/
theorem skip_iff (hs : start.normalize = start) {found : List Path}
    (hf : ∀ q ∈ found, q.normalize = q) (m : Path) :
    (m.normalize.same start || m.normalize.inNodeModules || found.any m.normalize.same) = true ↔
      m.normalize = start ∨ m.normalize.inNodeModules = true ∨ m.normalize ∈ found := by
  have hm := Path.normalize_normalize m
  rw [Bool.or_eq_true, Bool.or_eq_true, same_eq_true_iff hm hs, any_same_iff hm hf, or_assoc]

theorem normal_concat {found : List Path} (hf : ∀ q ∈ found, q.normalize = q) (m : Path) :
    ∀ q ∈ found ++ [m.normalize], q.normalize = q := by
  intro q hq
  rcases List.mem_append.mp hq with hq | hq
  · exact hf q hq
  · rw [List.mem_singleton.mp hq, Path.normalize_normalize]

theorem mem_addNew (hs : start.normalize = start) {found ms : List Path}
    (hf : ∀ q ∈ found, q.normalize = q) (q : Path) :
    q ∈ addNew start found ms ↔
      (∃ m ∈ ms, m.normalize = q) ∧ q ≠ start ∧ q.inNodeModules = false ∧ q ∉ found := by
  induction ms generalizing found with
  | nil => simp [addNew]
  | cons m ms ih =>
    rw [addNew]
    split
    · rename_i h
      rw [skip_iff hs hf] at h
      rw [ih hf]
      constructor
      · rintro ⟨⟨m', hm', hq⟩, hrest⟩
        exact ⟨⟨m', List.mem_cons_of_mem _ hm', hq⟩, hrest⟩
      · rintro ⟨⟨m', hm', hq⟩, hrest⟩
        refine ⟨?_, hrest⟩
        rcases List.mem_cons.mp hm' with rfl | hm'
        · subst hq
          rcases h with h | h | h
          · exact absurd h hrest.1
          · rw [hrest.2.1] at h
            cases h
          · exact absurd h hrest.2.2
        · exact ⟨m', hm', hq⟩
    · rename_i h
      rw [skip_iff hs hf, not_or, not_or, Bool.not_eq_true] at h
      rw [List.mem_cons, ih (normal_concat hf m), List.mem_append, List.mem_singleton, not_or]
      constructor
      · rintro (rfl | ⟨⟨m', hm', hq⟩, h₁, h₂, h₃, -⟩)
        · exact ⟨⟨m, List.mem_cons_self, rfl⟩, h⟩
        · exact ⟨⟨m', List.mem_cons_of_mem _ hm', hq⟩, h₁, h₂, h₃⟩
      · rintro ⟨⟨m', hm', hq⟩, h₁, h₂, h₃⟩
        by_cases hqm : q = m.normalize
        · exact .inl hqm
        · rcases List.mem_cons.mp hm' with rfl | hm'
          · exact absurd hq.symm hqm
          · exact .inr ⟨⟨m', hm', hq⟩, h₁, h₂, h₃, hqm⟩

theorem nodup_append_addNew {found ms : List Path}
    (hf : ∀ q ∈ found, q.normalize = q) (hd : found.Nodup) :
    (found ++ addNew start found ms).Nodup := by
  induction ms generalizing found with
  | nil => simpa [addNew] using hd
  | cons m ms ih =>
    have hm := Path.normalize_normalize m
    rw [addNew]
    split
    · exact ih hf hd
    · rename_i h
      rw [Bool.or_eq_true, Bool.or_eq_true, any_same_iff hm hf, not_or] at h
      have hd' : (found ++ [m.normalize]).Nodup :=
        List.nodup_append.mpr ⟨hd, by simp, by
          intro a ha b hb
          rw [List.mem_singleton.mp hb]
          rintro rfl
          exact h.2 ha⟩
      have := ih (normal_concat hf m) hd'
      rwa [List.append_assoc, List.singleton_append] at this

end AddNew

/-! ## The walk -/

/-- What the walk has done so far: the files in `done` are processed, those in the queue
were found and wait. -/
structure Progress (imports : Path → List Path) (start : Path)
    (done queue found : List Path) : Prop where
  order : start :: found = done ++ queue
  nodup : found.Nodup
  sound : ∀ q ∈ found, Reaches imports start q ∧ q ≠ start
  closed : ∀ p ∈ done, ∀ q, Imports imports p q → q = start ∨ q ∈ found

namespace Progress

variable {imports : Path → List Path} {start file : Path} {done queue found : List Path}

theorem begin (imports : Path → List Path) (start : Path) :
    Progress imports start [] [start] [] :=
  { order := rfl
    nodup := List.nodup_nil
    sound := fun q hq => by simp at hq
    closed := fun p hp => by simp at hp }

theorem reaches (g : Progress imports start done queue found) {p : Path}
    (hp : p ∈ done ++ queue) : Reaches imports start p := by
  rw [← g.order] at hp
  rcases List.mem_cons.mp hp with rfl | hp
  · exact .start
  · exact (g.sound p hp).1

theorem normal (g : Progress imports start done queue found) (hs : start.normalize = start) :
    ∀ q ∈ found, q.normalize = q :=
  fun q hq => (g.sound q hq).1.normal hs

/-- Processing the first file of the queue. -/
theorem next (g : Progress imports start done (file :: queue) found)
    (hs : start.normalize = start) :
    Progress imports start (done ++ [file]) (queue ++ addNew start found (imports file))
      (found ++ addNew start found (imports file)) := by
  have hf := g.normal hs
  have hfile : Reaches imports start file := g.reaches (by simp)
  refine ⟨?_, nodup_append_addNew hf g.nodup, ?_, ?_⟩
  · rw [← List.cons_append, g.order]
    simp
  · intro q hq
    rcases List.mem_append.mp hq with hq | hq
    · exact g.sound q hq
    · obtain ⟨⟨m, hm, rfl⟩, hne, hn, -⟩ := (mem_addNew hs hf q).mp hq
      exact ⟨hfile.step hm hn, hne⟩
  · intro p hp q hq
    rw [List.mem_append]
    rcases List.mem_append.mp hp with hp | hp
    · exact (g.closed p hp q hq).imp_right .inl
    · rw [List.mem_singleton.mp hp] at hq
      obtain ⟨m, hm, hmq, hn⟩ := hq
      by_cases hqs : q = start
      · exact .inl hqs
      · by_cases hqf : q ∈ found
        · exact .inr (.inl hqf)
        · exact .inr (.inr ((mem_addNew hs hf q).mpr ⟨⟨m, hm, hmq⟩, hqs, hn, hqf⟩))

/-- With nothing left to process, all that is reached has been found. -/
theorem complete (g : Progress imports start done [] found) {q : Path}
    (h : Reaches imports start q) : q = start ∨ q ∈ found := by
  have hdone : done = start :: found := by simpa using g.order.symm
  induction h with
  | start => exact .inl rfl
  | @step p m _ hm hn ih =>
    refine g.closed p ?_ _ ⟨m, hm, rfl, hn⟩
    rw [hdone]
    exact List.mem_cons.mpr ih

end Progress

/-- Whether a number bounds how many different modules are imported anywhere. -/
def IsBound (imports : Path → List Path) (bound : Nat) : Prop :=
  ∀ l : List Path, l.Nodup → (∀ q ∈ l, ∃ p, Imports imports p q) → l.length ≤ bound

section Walk

variable {imports : Path → List Path} {bound : Nat} {start : Path}

theorem Reaches.imported {q : Path} (h : Reaches imports start q) (hne : q ≠ start) :
    ∃ p, Imports imports p q := by
  cases h with
  | start => exact absurd rfl hne
  | @step p m _ hm hn => exact ⟨p, m, hm, rfl, hn⟩

/-- Nothing waits any more when as many files are processed as can come up at all. -/
theorem Progress.queue_eq_nil {done queue found : List Path}
    (g : Progress imports start done queue found) (hb : IsBound imports bound)
    (hdone : bound + 1 ≤ done.length) : queue = [] := by
  have hlen : found.length ≤ bound :=
    hb found g.nodup fun q hq => (g.sound q hq).1.imported (g.sound q hq).2
  have horder := congrArg List.length g.order
  rw [List.length_cons, List.length_append] at horder
  exact List.eq_nil_of_length_eq_zero (by omega)

/-- Enough fuel for all files that can still come up leads to an empty queue. -/
theorem walk_progress (hs : start.normalize = start) (hb : IsBound imports bound) :
    ∀ fuel done queue found, Progress imports start done queue found →
      bound + 1 ≤ done.length + fuel →
      ∃ done', Progress imports start done' []
        (walk (fun (u : Unit) file => (imports file, u)) start fuel queue found ()).1 := by
  intro fuel
  induction fuel with
  | zero =>
    intro done queue found g hfuel
    have hq := g.queue_eq_nil hb hfuel
    subst hq
    exact ⟨done, g⟩
  | succ fuel ih =>
    intro done queue found g hfuel
    cases queue with
    | nil => exact ⟨done, g⟩
    | cons file queue =>
      simp only [walk]
      refine ih (done ++ [file]) _ _ (g.next hs) ?_
      rw [List.length_append, List.length_singleton]
      omega

theorem ofImports_progress (hs : start.normalize = start) (hb : IsBound imports bound) :
    ∃ done, Progress imports start done [] (ofImports imports bound start) :=
  walk_progress hs hb _ _ _ _ (Progress.begin imports start) (by simp)

/-- The walk finds exactly the other modules that the start reaches, each once. -/
theorem ofImports_isClosure (hs : start.normalize = start) (hb : IsBound imports bound) :
    IsClosure imports start (ofImports imports bound start) := by
  obtain ⟨done, g⟩ := ofImports_progress hs hb
  refine ⟨g.nodup, fun q => ⟨g.sound q, ?_⟩⟩
  rintro ⟨h, hne⟩
  exact (g.complete h).resolve_left hne

/-- Fuel beyond what is enough is not used. -/
theorem walk_add_fuel (hs : start.normalize = start) (hb : IsBound imports bound) (extra : Nat) :
    ∀ fuel done queue found, Progress imports start done queue found →
      bound + 1 ≤ done.length + fuel →
      walk (fun (u : Unit) file => (imports file, u)) start (fuel + extra) queue found () =
        walk (fun (u : Unit) file => (imports file, u)) start fuel queue found () := by
  intro fuel
  induction fuel with
  | zero =>
    intro done queue found g hfuel
    have hq := g.queue_eq_nil hb hfuel
    subst hq
    cases extra <;> rfl
  | succ fuel ih =>
    intro done queue found g hfuel
    rw [Nat.add_right_comm]
    cases queue with
    | nil => rfl
    | cons file queue =>
      simp only [walk]
      refine ih (done ++ [file]) _ _ (g.next hs) ?_
      rw [List.length_append, List.length_singleton]
      omega

/-- All bounds give the same walk. -/
theorem ofImports_bound {bound' : Nat} (hs : start.normalize = start)
    (hb : IsBound imports bound) (hb' : IsBound imports bound') :
    ofImports imports bound start = ofImports imports bound' start := by
  have hle : ∀ b b', IsBound imports b → b ≤ b' →
      ofImports imports b' start = ofImports imports b start := by
    intro b b' hb h
    obtain ⟨extra, rfl⟩ := Nat.exists_eq_add_of_le h
    have hw := walk_add_fuel hs hb extra (b + 2) _ _ _ (Progress.begin imports start) (by simp)
    rw [ofImports, of, Nat.add_right_comm, hw]
    rfl
  rcases Nat.le_total bound bound' with h | h
  · exact (hle bound bound' hb h).symm
  · exact hle bound' bound hb' h

/-- Only the imports of files that are reached matter. -/
theorem ofImports_congr {imports' : Path → List Path} (hs : start.normalize = start)
    (h : ∀ p, Reaches imports start p → imports' p = imports p) (bound : Nat) :
    ofImports imports' bound start = ofImports imports bound start := by
  have hwalk : ∀ fuel done queue found, Progress imports start done queue found →
      walk (fun (u : Unit) file => (imports' file, u)) start fuel queue found () =
        walk (fun (u : Unit) file => (imports file, u)) start fuel queue found () := by
    intro fuel
    induction fuel with
    | zero => exact fun _ _ _ _ => rfl
    | succ fuel ih =>
      intro done queue found g
      cases queue with
      | nil => rfl
      | cons file queue =>
        simp only [walk]
        rw [h file (g.reaches (by simp))]
        exact ih (done ++ [file]) _ _ (g.next hs)
  rw [ofImports, of, hwalk _ _ _ _ (Progress.begin imports start)]
  rfl

end Walk
end Closure
end TestTransform

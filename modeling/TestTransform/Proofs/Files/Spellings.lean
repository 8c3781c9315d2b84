/-
Spellings of one file.

A path in normal form has its names behind at most one `..`, and two spellings with one normal
form cannot be told apart by a store: whatever is asked of it through the one is answered as it
is through the other, but for the path that an error names, and leaves the same store.  So a
sequence of operations may spell every path as it likes.  What is listed are normal forms, and
each of them once.
-/
import TestTransform.Proofs.Files.Apart
import TestTransform.Proofs.Files.Listing
import TestTransform.Proofs.Path.Lexical

namespace TestTransform

open Component (IsName)

namespace Path

/-- Normal forms are the same path only if they are the same text. -/
theorem same_normalize_iff {p q : Path} :
    p.normalize.same q.normalize = true ↔ p.normalize = q.normalize :=
  ⟨normalize_eq_of_same, fun h => h ▸ same_refl p.normalize⟩

/-- Behind the root, if there is one, a normal form has one `..` or none and then names. -/
theorem exists_components_normalize (p : Path) :
    ∃ (ups : List Component) (names : List Text),
      p.normalize.components =
        (if p.isAbsolute then [.root] else []) ++ (ups ++ names.map .normal) ∧
      (ups = [] ∨ ups = [.parent]) ∧ ∀ name ∈ names, IsName name := by
  have hups : ∀ s : Position, s.ups = [] ∨ s.ups = [.parent] := by
    intro s
    rw [Position.ups]
    rcases Nat.mod_two_eq_zero_or_one s.above with h | h
    · exact .inl (by rw [h]; rfl)
    · exact .inr (by rw [h]; rfl)
  have hshape : p.normalize.components = (if p.isAbsolute then [.root] else []) ++
      ((walk .start p.components).ups ++ (walk .start p.components).components) := by
    rw [components_normalize]
    cases h : p.isAbsolute with
    | true => exact normalComponents_absolute h
    | false => exact normalComponents_relative h
  refine ⟨_, (walk .start p.components).names.reverse, ?_, hups (walk .start p.components), ?_⟩
  · rw [hshape, Position.components, List.map_reverse]
  · intro name hname
    obtain ⟨first, steps, hp, hfirst, hsteps⟩ := components_cases p.normalize
    have hmem : Component.normal name ∈ first ++ steps := by
      rw [← hp, hshape, Position.components, ← List.map_reverse]
      exact List.mem_append_right _ (List.mem_append_right _ (List.mem_map_of_mem hname))
    rcases List.mem_append.mp hmem with h | h
    · rcases hfirst with rfl | rfl | rfl <;> simp at h
    · exact hsteps _ h

end Path

namespace Store

open TestTransform.Path

/-! ## Operations -/

/-- What can be asked of a store about a path. -/
inductive Operation where
  | add (content : Text)
  | touch
  | remove
  | read
  | hasFile
  | modified
  | list
  /-- Which files there are, wherever they lie. -/
  | paths
  deriving DecidableEq

/-- What a store answers. -/
inductive Answer where
  | done (outcome : Except FileError Unit)
  | text (outcome : Except FileError Text)
  | there (isThere : Bool)
  | time (outcome : Except FileError Nat)
  | files (paths : List Path)

/-- The answer with an error that names another path. -/
def Answer.naming (p : Path) : Answer → Answer
  | .done outcome => .done (outcome.mapError fun _ => notFound p)
  | .text outcome => .text (outcome.mapError fun _ => notFound p)
  | .there isThere => .there isThere
  | .time outcome => .time (outcome.mapError fun _ => notFound p)
  | .files paths => .files paths

/-- The answer to an operation and the store behind it.  Nothing changes when a file cannot be
removed. -/
def perform (s : Store) (op : Operation) (p : Path) : Answer × Store :=
  match op with
  | .add content => (.done (.ok ()), s.add p content)
  | .touch => (.done (.ok ()), s.touch p)
  | .remove =>
    match s.remove p with
    | .ok s' => (.done (.ok ()), s')
    | .error e => (.done (.error e), s)
  | .read => (.text (s.read p), s)
  | .hasFile => (.there (s.hasFile p), s)
  | .modified => (.time (s.modified p), s)
  | .list => (.files (s.list p), s)
  | .paths => (.files s.paths, s)

/-- The answers to operations one after another, and the store behind them. -/
def run (s : Store) : List (Operation × Path) → List Answer × Store
  | [] => ([], s)
  | (op, p) :: calls =>
    let (answer, s') := s.perform op p
    let (answers, s'') := run s' calls
    (answer :: answers, s'')

variable {s s' : Store} {p q : Path}

theorem Made.perform (h : Made s) (op : Operation) (p : Path) : Made (s.perform op p).2 := by
  cases op with
  | add content => exact h.add p content
  | touch => exact h.touch p
  | remove =>
    simp only [Store.perform]
    split
    · exact h.remove ‹_›
    · exact h
  | read | hasFile | modified | list | paths => exact h

theorem Made.run (h : Made s) (calls : List (Operation × Path)) : Made (s.run calls).2 := by
  induction calls generalizing s with
  | nil => exact h
  | cons call calls ih => exact ih (h.perform call.1 call.2)

/-! ## Other spellings -/

section Respelled

theorem file?_eq_of_normalize (h : p.normalize = q.normalize) (s : Store) :
    s.file? p = s.file? q := by
  rw [file?, file?, h]

theorem read_eq_of_normalize (h : p.normalize = q.normalize) (s : Store) :
    s.read q = (s.read p).mapError fun _ => notFound q := by
  rw [read, read, file?_eq_of_normalize h]
  cases s.file? q <;> rfl

theorem modified_eq_of_normalize (h : p.normalize = q.normalize) (s : Store) :
    s.modified q = (s.modified p).mapError fun _ => notFound q := by
  rw [modified, modified, file?_eq_of_normalize h]
  cases s.file? q <;> rfl

theorem remove_eq_of_normalize (h : p.normalize = q.normalize) (s : Store) :
    s.remove q = (s.remove p).mapError fun _ => notFound q := by
  rw [remove, remove, file?_eq_of_normalize h, h]
  cases s.file? q <;> rfl

/-- An operation does the same through both spellings. -/
theorem perform_of_normalize (h : p.normalize = q.normalize) (s : Store) (op : Operation) :
    s.perform op q = ((s.perform op p).1.naming q, (s.perform op p).2) := by
  cases op with
  | add content => simp only [perform, add, h, Answer.naming, Except.mapError]
  | touch => simp only [perform, touch, h, Answer.naming, Except.mapError]
  | remove =>
    simp only [perform, remove_eq_of_normalize h]
    cases s.remove p <;> rfl
  | read => simp only [perform, read_eq_of_normalize h, Answer.naming]
  | hasFile => simp only [perform, hasFile, file?_eq_of_normalize h, Answer.naming]
  | modified => simp only [perform, modified_eq_of_normalize h, Answer.naming]
  | list => simp only [perform, list, h, Answer.naming]
  | paths => rfl

/-- Whether two calls are the same but for the spelling of the path. -/
def Respelled (call call' : Operation × Path) : Prop :=
  call.1 = call'.1 ∧ call.2.normalize = call'.2.normalize

/-- Operations with other spellings of their paths have the same answers, with errors that name
the paths as they are spelled now, and leave the same store. -/
theorem run_of_respelled {calls calls' : List (Operation × Path)}
    (h : List.Forall₂ Respelled calls calls') (s : Store) :
    s.run calls' =
      (List.zipWith (fun call answer => answer.naming call.2) calls' (s.run calls).1,
        (s.run calls).2) := by
  induction h generalizing s with
  | nil => rfl
  | @cons call call' calls calls' hcall _ ih =>
    obtain ⟨op, p⟩ := call
    obtain ⟨op', q⟩ := call'
    obtain ⟨rfl, hpq⟩ := hcall
    simp only [run, perform_of_normalize hpq, ih, List.zipWith_cons_cons]

end Respelled

/-! ## What operations do to a file -/

/-- What an operation on a file makes of it; `now` is the second that it may be given as its
time. -/
def Operation.effect (now : Nat) (file : Option StoredFile) : Operation → Option StoredFile
  | .add content => some ⟨content, now⟩
  | .touch => file.map fun f => { f with modified := now }
  | .remove => none
  | _ => file

theorem file?_remove (hs : s.remove q = .ok s') (p : Path) :
    s'.file? p = if p.normalize = q.normalize then none else s.file? p := by
  rw [remove] at hs
  split at hs
  · cases hs
    simp only [file?, Assoc.find?_erase, cmp_eq_iff_same, same_normalize_iff,
      @eq_comm _ q.normalize p.normalize]
  · cases hs

/-- An operation is one on the file with all its spellings, and on no other. -/
theorem file?_perform (s : Store) (op : Operation) (q p : Path) :
    (s.perform op q).2.file? p =
      if p.normalize = q.normalize then op.effect (s.clock + 1) (s.file? p) else s.file? p := by
  cases op with
  | add content => simp only [perform, file?_add, same_normalize_iff, Operation.effect]
  | touch =>
    simp only [perform, file?_touch, same_normalize_iff, Operation.effect,
      @eq_comm _ q.normalize p.normalize]
    split
    · rfl
    · exact Option.map_id'
  | remove =>
    simp only [perform, Operation.effect]
    split
    · exact file?_remove ‹_› p
    · rename_i e hs
      rw [remove] at hs
      split at hs
      · cases hs
      · rename_i hnone
        split
        · rename_i hpq
          rw [file?_eq_of_normalize hpq, hnone]
        · rfl
  | read | hasFile | modified | list | paths => simp only [perform, Operation.effect, ite_self]

/-- What a file holds follows from the operations on its spellings alone. -/
theorem content_run (s : Store) (calls : List (Operation × Path)) (p : Path) :
    ((s.run calls).2.file? p).map (·.content) =
      ((s.run (calls.filter fun call => p.normalize = call.2.normalize)).2.file? p).map
        (·.content) := by
  have heffect : ∀ (op : Operation) (now now' : Nat) (file file' : Option StoredFile),
      file.map (·.content) = file'.map (·.content) →
      (op.effect now file).map (·.content) = (op.effect now' file').map (·.content) := by
    intro op now now' file file' h
    cases op with
    | add | remove => rfl
    | touch => simpa only [Operation.effect, Option.map_map, Function.comp_def] using h
    | read | hasFile | modified | list | paths => exact h
  -- The clocks of the two stores may differ, and so the times.
  suffices hall : ∀ s s' : Store, (s.file? p).map (·.content) = (s'.file? p).map (·.content) →
      ((s.run calls).2.file? p).map (·.content) =
        ((s'.run (calls.filter fun call => p.normalize = call.2.normalize)).2.file? p).map
          (·.content) from hall s s rfl
  induction calls with
  | nil => exact fun s s' h => h
  | cons call calls ih =>
    intro s s' h
    by_cases hp : p.normalize = call.2.normalize
    · rw [List.filter_cons_of_pos (by simpa using hp)]
      refine ih _ _ ?_
      show ((s.perform call.1 call.2).2.file? p).map _ = ((s'.perform call.1 call.2).2.file? p).map _
      rw [file?_perform, file?_perform, if_pos hp, if_pos hp]
      exact heffect call.1 _ _ _ _ h
    · rw [List.filter_cons_of_neg (by simpa using hp)]
      refine ih _ _ ?_
      show ((s.perform call.1 call.2).2.file? p).map _ = _
      rwa [file?_perform, if_neg hp]

/-! ## Lists -/

theorem InOrder.nodup (h : s.InOrder) : s.paths.Nodup := by
  refine List.pairwise_map.mpr (h.rising.imp fun {a b} hlt heq => ?_)
  rw [heq, cmp_eq_iff.mpr rfl] at hlt
  cases hlt

/-- The files that are there are the ones whose normal forms are listed. -/
theorem InOrder.mem_paths_iff (h : s.InOrder) : p.normalize ∈ s.paths ↔ s.hasFile p = true := by
  constructor
  · intro hmem
    obtain ⟨e, he, heq⟩ := List.mem_map.mp hmem
    exact Assoc.find?_isSome_of_mem (cmp_eq_iff.mpr (congrArg components heq.symm)) he
  · intro hfile
    obtain ⟨f, hf⟩ := Option.isSome_iff_exists.mp hfile
    obtain ⟨key, hkey, hmem⟩ := Assoc.mem_of_find? hf
    have hpath : key ∈ s.paths := List.mem_map_of_mem hmem
    have hsame := cmp_eq_iff_same.mp hkey
    rw [← h.normal key hpath, same_normalize_iff, h.normal key hpath] at hsame
    exact hsame ▸ hpath

/-- Of the paths in a list, one names the file with a given spelling, or none does. -/
theorem InOrder.filter_list (h : s.InOrder) (dir p : Path) :
    (s.list dir).filter (fun f => f.normalize = p.normalize) =
      if s.hasFile p ∧ isListed dir.normalize p.normalize then [p.normalize] else [] := by
  have hnormal : ∀ f ∈ s.list dir, f.normalize = f := fun f hf =>
    h.normal f (List.mem_of_mem_filter hf)
  have hfilter : (s.list dir).filter (fun f => f.normalize = p.normalize) =
      (s.list dir).filter (· == p.normalize) := by
    refine List.filter_congr fun f hf => ?_
    rw [hnormal f hf]
    rfl
  have hmem : p.normalize ∈ s.list dir ↔
      s.hasFile p ∧ isListed dir.normalize p.normalize := by
    rw [list, List.mem_filter, h.mem_paths_iff]
  have hnodup : (s.list dir).Nodup := h.nodup.filter _
  rw [hfilter, List.filter_beq, hnodup.count]
  simp only [hmem]
  split <;> rfl

/-! ## Spellings -/

/-- What the normal form of a path is for a store on which some operations have been performed; the
other path is another spelling. -/
structure NamesFile (p q : Path) (calls : List (Operation × Path)) : Prop where
  idempotent : p.normalize.normalize = p.normalize
  /-- Paths that count as the same have one normal form. -/
  congruent : ∀ r, p.same r = true → p.normalize = r.normalize
  /-- There is no `.` in it, and no `..` but perhaps one, which comes first or right behind the
  root. -/
  shape : ∃ (ups : List Component) (names : List Text),
    p.normalize.components =
      (if p.isAbsolute then [.root] else []) ++ (ups ++ names.map .normal) ∧
    (ups = [] ∨ ups = [.parent])
  /-- Operations that spell their paths otherwise have the same answers, with errors that name the
  paths as they are spelled, and leave the same store. -/
  respelled : ∀ calls', List.Forall₂ Respelled calls calls' →
    run {} calls' = (List.zipWith (fun call answer => answer.naming call.2) calls'
      (run {} calls).1, (run {} calls).2)
  /-- What the file holds follows from the operations on its spellings. -/
  content : ((run {} calls).2.file? p).map (·.content) =
    ((run {} (calls.filter fun call => q.normalize = call.2.normalize)).2.file? q).map (·.content)
  /-- An operation on one spelling gives the same answer on the other one. -/
  performed : ∀ op, (run {} calls).2.perform op q =
    (((run {} calls).2.perform op p).1.naming q, ((run {} calls).2.perform op p).2)
  /-- It works on the file that is found under both, and changes no other file. -/
  effect : ∀ op r, ((run {} calls).2.perform op q).2.file? r =
    if r.normalize = p.normalize then
      op.effect ((run {} calls).2.clock + 1) ((run {} calls).2.file? p)
    else (run {} calls).2.file? r
  /-- Lists show the file once if they show it. -/
  listed : ∀ dir, ((run {} calls).2.list dir).filter (fun f => f.normalize = p.normalize) =
    if (run {} calls).2.hasFile q ∧ isListed dir.normalize p.normalize then [p.normalize] else []

/-- Two spellings with the same normal form name the same file of a store, after any operations
on one that was empty. -/
theorem normal_forms_name_files {p q : Path} (h : p.normalize = q.normalize)
    (calls : List (Operation × Path)) : NamesFile p q calls where
  idempotent := normalize_normalize p
  congruent _ := normalize_congr
  shape := by
    obtain ⟨ups, names, hcomponents, hups, -⟩ := exists_components_normalize p
    exact ⟨ups, names, hcomponents, hups⟩
  respelled _ hcalls := run_of_respelled hcalls {}
  content := by
    rw [← h, ← file?_eq_of_normalize h]
    exact content_run {} calls p
  performed := perform_of_normalize h _
  effect op r := by
    rw [file?_perform, ← h]
    split
    · rw [file?_eq_of_normalize ‹_›]
    · rfl
  listed dir := by
    rw [hasFile, ← file?_eq_of_normalize h]
    exact (Made.empty.run calls).inOrder.filter_list dir p

theorem normal_forms_name_files_written :
    (ofString "/a/./b/../c.ts").normalize = (ofString "/a//c.ts/").normalize ∧
      ((run {} [(.add "x", ofString "/a//c.ts/")]).2.list (ofString "/a")).filter
        (fun f => f.normalize = (ofString "/a/./b/../c.ts").normalize) =
          [ofString "/a/c.ts"] := by
  have h : (ofString "/a/./b/../c.ts").normalize = (ofString "/a//c.ts/").normalize := by decide
  have hnames := normal_forms_name_files h [(.add "x", ofString "/a//c.ts/")]
  refine ⟨h, (hnames.listed (ofString "/a")).trans ?_⟩
  decide +kernel

end Store
end TestTransform

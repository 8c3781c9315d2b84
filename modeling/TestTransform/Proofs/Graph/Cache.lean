/-
The cache of one writer agrees with its file.

After each operation of a cache on a disk that serves its file, the cache is the one that
would be opened on its directory then.  The file may be missing, it may hold any text, and
writing may be left out because an entry was only spelled differently: what a cache holds is
read off the file before and after.
-/
import TestTransform.Graph.Cache
import TestTransform.Proofs.Files.Apart
import TestTransform.Proofs.Graph.Text

namespace TestTransform

/-! ## Disks that serve a file -/

namespace Disk

/-- Whether no operation on a file is denied. -/
structure Serves (d : Disk) (p : Path) : Prop where
  read : (d.denials.read.any fun q => q.same p) = false
  write : (d.denials.write.any fun q => q.same p) = false
  remove : (d.denials.remove.any fun q => q.same p) = false

theorem guarded_of_served {α : Type} {denied : List Path} {p : Path}
    (h : (denied.any fun q => q.same p) = false) (result : Except FileError α) :
    guarded denied p result = result := by
  rw [guarded, h]
  rfl

/-- The disk with a text written to a file. -/
def holding (d : Disk) (p : Path) (content : Text) : Disk :=
  { d with store := d.store.add p content }

theorem write_of_serves {d : Disk} {p : Path} (h : d.Serves p) (content : Text) :
    d.write p content = .ok (d.holding p content) :=
  guarded_of_served h.write _

theorem remove_of_serves {d : Disk} {p : Path} (h : d.Serves p) (hfile : d.hasFile p = true) :
    d.remove p = .ok (d.without p) := by
  obtain ⟨f, hf⟩ := Option.isSome_iff_exists.mp hfile
  rw [remove, guarded_of_served h.remove, Store.remove, hf]
  rfl

theorem read_of_serves {d : Disk} {p : Path} (h : d.Serves p) : d.read p = d.store.read p :=
  guarded_of_served h.read _

theorem Serves.holding {d : Disk} {p : Path} (h : d.Serves p) (content : Text) :
    (d.holding p content).Serves p :=
  ⟨h.read, h.write, h.remove⟩

theorem Serves.without {d : Disk} {p : Path} (h : d.Serves p) : (d.without p).Serves p :=
  ⟨h.read, h.write, h.remove⟩

theorem file?_holding (d : Disk) (p : Path) (content : Text) :
    (d.holding p content).store.file? p = some ⟨content, d.store.clock + 1⟩ := by
  rw [Disk.holding, Store.file?_add, if_pos (Path.same_refl _)]

theorem hasFile_holding (d : Disk) (p : Path) (content : Text) :
    (d.holding p content).hasFile p = true := by
  rw [hasFile, Store.hasFile, file?_holding]
  rfl

theorem read_holding {d : Disk} {p : Path} (h : d.Serves p) (content : Text) :
    (d.holding p content).read p = .ok content := by
  rw [read_of_serves (h.holding content), Store.read, file?_holding]

theorem hasFile_without (d : Disk) (p : Path) : (d.without p).hasFile p = false := by
  rw [hasFile, Store.hasFile, file?_without, if_pos (Path.same_refl _)]
  rfl

end Disk

/-! ## Graphs that were read -/

theorem DependencyGraph.rising_of_ofText? {t : Text} {g : DependencyGraph}
    (h : ofText? t = some g) : g.Rising := by
  rw [ofText?] at h
  split at h
  · obtain ⟨entries, -, rfl⟩ := Option.map_eq_some_iff.mp h
    exact Assoc.rising_nil.insertAll entries
  · cases h

namespace GraphCache

/-- The file of the caches on a directory. -/
def fileIn (dir : Path) : Path := dir.join ⟨fileName⟩

/-- What opening a cache on a directory takes from the file there. -/
def stored (d : Disk) (dir : Path) : DependencyGraph :=
  if d.hasFile (fileIn dir) then
    (((d.read (fileIn dir)).toOption).bind DependencyGraph.ofText?).getD {}
  else {}

theorem openAt_eq (d : Disk) (dir : Path) :
    openAt d.view (some dir) = ⟨some (fileIn dir), stored d dir⟩ := by
  have hnew : new (some dir) = ⟨some (fileIn dir), {}⟩ := rfl
  have hview : d.view.hasFile (fileIn dir) = d.hasFile (fileIn dir) := rfl
  rw [openAt, hnew, load, stored]
  cases h : d.hasFile (fileIn dir) with
  | true =>
    simp only [hview, h, if_true]
    rfl
  | false => simp only [hview, h, Bool.false_eq_true, if_false]

theorem rising_stored (d : Disk) (dir : Path) : (stored d dir).Rising := by
  rw [stored]
  split
  · cases h : (d.read (fileIn dir)).toOption.bind DependencyGraph.ofText? with
    | none => exact DependencyGraph.rising_empty
    | some g =>
      obtain ⟨t, -, hg⟩ := Option.bind_eq_some_iff.mp h
      exact DependencyGraph.rising_of_ofText? hg
  · exact DependencyGraph.rising_empty

/-- A graph that was written is what is opened next. -/
theorem stored_holding {d : Disk} {dir : Path} (h : d.Serves (fileIn dir)) {g : DependencyGraph}
    (hg : g.Rising) : stored (d.holding (fileIn dir) g.toText) dir = g := by
  rw [stored, Disk.hasFile_holding, if_pos rfl, Disk.read_holding h]
  simp only [Except.toOption, Option.bind_some, DependencyGraph.ofText?_toText hg,
    Option.getD_some]

theorem stored_of_no_file {d : Disk} {dir : Path} (h : d.hasFile (fileIn dir) = false) :
    stored d dir = {} := by
  rw [stored, h]
  rfl

/-! ## Operations -/

/-- What is done with an open cache. -/
inductive Operation where
  | record (path : Path) (content : Text) (modules : List Path)
  | clear
  | load
  | save
  deriving DecidableEq, Repr

/-- A cache and its disk after an operation.  An operation that fails on the disk leaves the
disk as it was. -/
def perform (s : GraphCache × Disk) : Operation → GraphCache × Disk
  | .record p content modules => (s.1.record s.2 p content modules).2
  | .clear => ((s.1.clear s.2).1, (s.1.clear s.2).2.toOption.getD s.2)
  | .load => (s.1.load s.2.view, s.2)
  | .save => (s.1, (s.1.save s.2).toOption.getD s.2)

variable {c : GraphCache} {d : Disk} {dir : Path}

/-- Where a cache has a served file, saving it puts its graph into the file. -/
theorem save_of_serves (hfile : c.file = some (fileIn dir)) (h : d.Serves (fileIn dir)) :
    c.save d = .ok (d.holding (fileIn dir) c.graph.toText) := by
  rw [save, hfile]
  simp only [Disk.write_of_serves h, Except.mapError]

theorem perform_save (hfile : c.file = some (fileIn dir)) (h : d.Serves (fileIn dir)) :
    perform (c, d) .save = (c, d.holding (fileIn dir) c.graph.toText) := by
  simp only [perform, save_of_serves hfile h]
  rfl

/-- Recording an entry that is there already does nothing; any other one is written. -/
theorem perform_record (hfile : c.file = some (fileIn dir)) (h : d.Serves (fileIn dir)) (p : Path)
    (content : Text) (modules : List Path) :
    perform (c, d) (.record p content modules) =
      let r := c.graph.insert p ⟨content, modules⟩
      ({ c with graph := r.2 }, if r.1 then d.holding (fileIn dir) r.2.toText else d) := by
  rcases hr : c.graph.insert p ⟨content, modules⟩ with ⟨changed, g⟩
  have hsave : ({ c with graph := g } : GraphCache).save d =
      .ok (d.holding (fileIn dir) g.toText) := save_of_serves hfile h
  cases changed with
  | true => simp only [perform, record, hr, hsave, if_true]
  | false => simp only [perform, record, hr, Bool.false_eq_true, if_false]

theorem perform_clear (hfile : c.file = some (fileIn dir)) (h : d.Serves (fileIn dir)) :
    perform (c, d) .clear =
      ({ c with graph := {} }, if d.hasFile (fileIn dir) then d.without (fileIn dir) else d) := by
  simp only [perform, clear, hfile]
  cases hd : d.hasFile (fileIn dir) with
  | true =>
    simp only [if_true, Disk.remove_of_serves h hd]
    rfl
  | false =>
    simp only [Bool.false_eq_true, if_false]
    rfl

theorem perform_load (hfile : c.file = some (fileIn dir)) :
    perform (c, d) .load =
      ({ c with graph := if d.hasFile (fileIn dir) then stored d dir else c.graph }, d) := by
  have hview : d.view.hasFile (fileIn dir) = d.hasFile (fileIn dir) := rfl
  simp only [perform, load, hfile, hview]
  cases hd : d.hasFile (fileIn dir) with
  | true =>
    simp only [if_true, stored, hd]
    rfl
  | false =>
    simp only [Bool.false_eq_true, if_false]
    rw [← hfile]

/-! ## One writer -/

/-- Whether a cache is the one that is opened on its directory now. -/
structure Coherent (dir : Path) (s : GraphCache × Disk) : Prop where
  serves : s.2.Serves (fileIn dir)
  opened : openAt s.2.view (some dir) = s.1

theorem Coherent.file (h : Coherent dir (c, d)) : c.file = some (fileIn dir) := by
  have hopened := h.opened
  rw [openAt_eq] at hopened
  exact (congrArg GraphCache.file hopened).symm

theorem Coherent.stored_eq (h : Coherent dir (c, d)) : stored d dir = c.graph := by
  have hopened := h.opened
  rw [openAt_eq] at hopened
  exact congrArg GraphCache.graph hopened

theorem Coherent.rising (h : Coherent dir (c, d)) : c.graph.Rising := by
  rw [← h.stored_eq]
  exact rising_stored d dir

theorem Coherent.of_stored (hfile : c.file = some (fileIn dir)) (hserves : d.Serves (fileIn dir))
    (hstored : stored d dir = c.graph) : Coherent dir (c, d) := by
  refine ⟨hserves, ?_⟩
  rw [openAt_eq, hstored, ← hfile]

theorem Coherent.perform (h : Coherent dir (c, d)) (op : Operation) :
    Coherent dir (GraphCache.perform (c, d) op) := by
  have hserves := h.serves
  cases op with
  | record p content modules =>
    rw [perform_record h.file hserves]
    have hrising := h.rising.insert p ⟨content, modules⟩
    rcases hr : c.graph.insert p ⟨content, modules⟩ with ⟨changed, g⟩
    rw [hr] at hrising
    cases changed with
    | true => exact .of_stored h.file (hserves.holding _) (stored_holding hserves hrising)
    | false =>
      -- Nothing is written, and the graph is the old one, whatever the entry's spelling.
      have hsame : g = c.graph := by
        rw [DependencyGraph.insert] at hr
        split at hr <;> cases hr
        rfl
      subst hsame
      exact .of_stored h.file hserves h.stored_eq
  | clear =>
    rw [perform_clear h.file hserves]
    cases hd : d.hasFile (fileIn dir) with
    | true => exact .of_stored h.file hserves.without (stored_of_no_file (d.hasFile_without _))
    | false => exact .of_stored h.file hserves (stored_of_no_file hd)
  | load =>
    rw [perform_load h.file, h.stored_eq, ite_self]
    exact h
  | save =>
    rw [perform_save h.file hserves]
    exact .of_stored h.file (hserves.holding _) (stored_holding hserves h.rising)

theorem Coherent.foldl_perform {s : GraphCache × Disk} (h : Coherent dir s)
    (ops : List Operation) : Coherent dir (ops.foldl GraphCache.perform s) := by
  induction ops generalizing s with
  | nil => exact h
  | cons op ops ih => exact ih (Coherent.perform (c := s.1) (d := s.2) h op)

/-- However a cache is used that was opened on a directory, one that is opened on the
directory afterwards is the same: its entries have the same paths, in the same spelling and
order, with the same contents and the same modules.  The file may be missing at first, and it
may hold any text. -/
theorem openAt_foldl_perform (d : Disk) (dir : Path) (h : d.Serves (fileIn dir))
    (ops : List Operation) :
    openAt (ops.foldl perform (openAt d.view (some dir), d)).2.view (some dir) =
      (ops.foldl perform (openAt d.view (some dir), d)).1 :=
  (Coherent.foldl_perform ⟨h, rfl⟩ ops).opened

namespace Respelled

def cacheDir : Path := ⟨"/cache"⟩

/-- At first the file holds no graph, and some other file cannot be written. -/
def disk : Disk where
  store := ({} : Store).add (fileIn cacheDir) "no graph"
  denials := { write := [⟨"/cache/other"⟩] }

/-- The second of two entries for one file only spells its paths differently. -/
def entries : List Operation :=
  [ .record ⟨"/b.ts"⟩ "export {}" [], .load,
    .record ⟨"/a.ts"⟩ "import './b'\n" [⟨"/b.ts"⟩],
    .record ⟨"//a.ts"⟩ "import './b'\n" [⟨"/./b.ts"⟩], .load ]

end Respelled

theorem openAt_foldl_perform_respelled :
    Respelled.disk.Serves (fileIn Respelled.cacheDir) ∧
      (Respelled.entries.foldl perform
          (openAt Respelled.disk.view (some Respelled.cacheDir), Respelled.disk)).1.graph.entries =
        [ (⟨"/a.ts"⟩, ⟨"import './b'\n", [⟨"/b.ts"⟩]⟩), (⟨"/b.ts"⟩, ⟨"export {}", []⟩) ] ∧
      openAt (Respelled.entries.foldl perform
          (openAt Respelled.disk.view (some Respelled.cacheDir), Respelled.disk)).2.view
          (some Respelled.cacheDir) =
        (Respelled.entries.foldl perform
          (openAt Respelled.disk.view (some Respelled.cacheDir), Respelled.disk)).1 := by
  have hserves : Respelled.disk.Serves (fileIn Respelled.cacheDir) :=
    ⟨by decide +kernel, by decide +kernel, by decide +kernel⟩
  exact ⟨hserves, by decide +kernel,
    openAt_foldl_perform Respelled.disk Respelled.cacheDir hserves Respelled.entries⟩

end GraphCache
end TestTransform

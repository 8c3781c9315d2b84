/-
What a table remembers of a file, told from the calls that were made.

A call for one path leaves the records of all others alone, so the record of a path follows
from the calls for it, in whichever spelling they name it.  Its version counts the texts that
differ from the one shown before.  An output stands as long as the count does: it is found if
the last call that stored one found the file known, and no text has changed since.
-/
import Mathlib.Data.List.Induction
import TestTransform.Proofs.Compiler.Table

namespace TestTransform

/-! ## One file -/

/-- What a call does to one file. -/
inductive FileEvent where
  | shown (text : Text)
  | stored (projectVersion : Nat) (o : CompiledOutput)
  deriving DecidableEq, Repr

namespace FileEvent

/-- The text that is shown, if one is. -/
def text? : FileEvent → Option Text
  | shown text => some text
  | stored _ _ => none

/-- The texts that are shown, one after the other. -/
def texts (events : List FileEvent) : List Text := events.filterMap text?

/-- How often a text differs from the one before it. -/
def changes : List Text → Nat
  | s :: t :: rest => (if s = t then 0 else 1) + changes (t :: rest)
  | _ => 0

/-- Whether an output stands after some events: it was stored for the project's state `v` by
the last event that stores any, when the file was known, and its text has not changed since. -/
def Stands (events : List FileEvent) (v : Nat) (o : CompiledOutput) : Prop :=
  ∃ before after, events = before ++ stored v o :: after ∧ (∀ v' o', stored v' o' ∉ after) ∧
    texts before ≠ [] ∧ changes (texts events) = changes (texts before)

theorem texts_append (before after : List FileEvent) :
    texts (before ++ after) = texts before ++ texts after :=
  List.filterMap_append

theorem texts_shown (events : List FileEvent) (text : Text) :
    texts (events ++ [shown text]) = texts events ++ [text] := by
  rw [texts_append]
  rfl

theorem texts_stored (events : List FileEvent) (v : Nat) (o : CompiledOutput) :
    texts (events ++ [stored v o]) = texts events := by
  rw [texts_append]
  exact List.append_nil _

/-! ### Counting changes -/

theorem changes_append (s t : Text) (front back : List Text) :
    changes (front ++ s :: t :: back) =
      changes (front ++ [s]) + (if s = t then 0 else 1) + changes (t :: back) := by
  induction front with
  | nil => simp [changes]
  | cons a front ih =>
    cases front with
    | nil => simp only [List.nil_append, List.cons_append, changes]; omega
    | cons b front =>
      simp only [List.cons_append, changes] at ih ⊢
      omega

theorem changes_concat {texts : List Text} {s : Text} (h : texts.getLast? = some s) (t : Text) :
    changes (texts ++ [t]) = changes texts + if s = t then 0 else 1 := by
  obtain ⟨front, rfl⟩ := List.getLast?_eq_some_iff.mp h
  rw [List.append_assoc, List.singleton_append, changes_append]
  rfl

/-- More texts only add changes. -/
theorem changes_le_append (front back : List Text) : changes front ≤ changes (front ++ back) := by
  induction back using List.reverseRecOn with
  | nil => rw [List.append_nil]
  | append_singleton back t ih =>
    rw [← List.append_assoc]
    cases hlast : (front ++ back).getLast? with
    | none =>
      rw [List.getLast?_eq_none_iff.mp hlast] at ih
      exact ih.trans (Nat.zero_le _)
    | some s =>
      rw [changes_concat hlast]
      omega

/-- As long as nothing has changed, the last text is the one there was. -/
theorem getLast?_append_of_changes {front : List Text} (hne : front ≠ []) (back : List Text)
    (h : changes (front ++ back) = changes front) :
    (front ++ back).getLast? = front.getLast? := by
  induction back using List.reverseRecOn with
  | nil => rw [List.append_nil]
  | append_singleton back t ih =>
    rw [← List.append_assoc] at h ⊢
    obtain ⟨s, hlast⟩ : ∃ s, (front ++ back).getLast? = some s :=
      Option.isSome_iff_exists.mp (by simp [hne])
    have hle := changes_le_append front back
    rw [changes_concat hlast] at h
    split at h
    · rename_i hst
      rw [List.getLast?_concat, ← hst, ← hlast]
      exact ih h
    · omega

/-! ### Outputs that stand -/

theorem not_stands_nil (v : Nat) (o : CompiledOutput) : ¬ Stands [] v o := by
  rintro ⟨before, after, h, -⟩
  simp at h

/-- Storing an output makes it stand if the file is known, and makes all others fall. -/
theorem stands_stored {events : List FileEvent} {v v' : Nat} {o o' : CompiledOutput} :
    Stands (events ++ [stored v' o']) v o ↔ texts events ≠ [] ∧ v' = v ∧ o' = o := by
  constructor
  · rintro ⟨before, after, hsplit, hlast, hknown, -⟩
    rcases List.eq_nil_or_concat after with rfl | ⟨after, e, rfl⟩
    · obtain ⟨rfl, he⟩ := List.append_inj' hsplit rfl
      cases he
      exact ⟨hknown, rfl, rfl⟩
    · have hsplit' : events ++ [stored v' o'] = (before ++ stored v o :: after) ++ [e] := by
        rw [hsplit, List.concat_eq_append, List.append_assoc, List.cons_append]
      obtain ⟨-, he⟩ := List.append_inj' hsplit' rfl
      cases he
      exact absurd (by simp) (hlast v' o')
  · rintro ⟨hknown, rfl, rfl⟩
    exact ⟨events, [], rfl, fun _ _ h => List.not_mem_nil h, hknown, by rw [texts_stored]⟩

/-- Showing a text lets an output stand only if it is the text there is. -/
theorem stands_shown {events : List FileEvent} {text : Text} {v : Nat} {o : CompiledOutput} :
    Stands (events ++ [shown text]) v o ↔
      Stands events v o ∧ (texts events).getLast? = some text := by
  constructor
  · rintro ⟨before, after, hsplit, hlast, hknown, hchanges⟩
    rcases List.eq_nil_or_concat after with rfl | ⟨after, e, rfl⟩
    · obtain ⟨-, he⟩ := List.append_inj' hsplit rfl
      cases he
    · have hsplit' : events ++ [shown text] = (before ++ stored v o :: after) ++ [e] := by
        rw [hsplit, List.concat_eq_append, List.append_assoc, List.cons_append]
      obtain ⟨rfl, -⟩ := List.append_inj' hsplit' rfl
      rw [texts_shown] at hchanges
      have hfront : texts (before ++ stored v o :: after) = texts before ++ texts after := by
        rw [texts_append]
        rfl
      have hle := changes_le_append (texts before) (texts after)
      obtain ⟨s, hs⟩ : ∃ s, (texts before ++ texts after).getLast? = some s :=
        Option.isSome_iff_exists.mp (by simp [hknown])
      rw [hfront, changes_concat hs] at hchanges
      split at hchanges
      · rename_i hst
        refine ⟨⟨before, after, rfl, fun v' o' h => hlast v' o' (by simp [h]), hknown, ?_⟩, ?_⟩
        · rw [hfront]
          omega
        · rw [hfront, hs, hst]
      · omega
  · rintro ⟨⟨before, after, rfl, hlast, hknown, hchanges⟩, htext⟩
    refine ⟨before, after ++ [shown text], by simp, ?_, hknown, ?_⟩
    · intro v' o' h
      rcases List.mem_append.mp h with h | h
      · exact hlast v' o' h
      · cases List.mem_singleton.mp h
    · rw [texts_shown, changes_concat htext, if_pos rfl, Nat.add_zero, hchanges]

end FileEvent

namespace FileRecord

open FileEvent

/-- The record of a file after an event.  Nothing is stored for a file that is not known. -/
def after : Option FileRecord → FileEvent → Option FileRecord
  | none, .shown text => some { text, version := 1 }
  | some r, .shown text =>
    some (if r.text = text then r else { text, version := r.version + 1 })
  | old, .stored v o => old.map fun r => { r with output := some (v, o) }

/-- The record of a file to which some events have come about. -/
def ofEvents (events : List FileEvent) : Option FileRecord := events.foldl after none

theorem ofEvents_concat (events : List FileEvent) (e : FileEvent) :
    ofEvents (events ++ [e]) = after (ofEvents events) e := by
  rw [ofEvents, List.foldl_append]
  rfl

/-- The record holds the last text, and its version counts the changes of it. -/
theorem ofEvents_text_version (events : List FileEvent) :
    (ofEvents events).map (fun r => (r.text, r.version)) =
      (texts events).getLast?.map fun text => (text, 1 + changes (texts events)) := by
  induction events using List.reverseRecOn with
  | nil => rfl
  | append_singleton events e ih =>
    rw [ofEvents_concat]
    cases e with
    | stored v o =>
      rw [texts_stored, ← ih]
      cases ofEvents events <;> rfl
    | shown text =>
      rw [texts_shown, List.getLast?_concat]
      cases hr : ofEvents events with
      | none =>
        rw [hr] at ih
        have hnil : texts events = [] :=
          List.getLast?_eq_none_iff.mp (Option.map_eq_none_iff.mp ih.symm)
        rw [hnil]
        rfl
      | some r =>
        rw [hr] at ih
        obtain ⟨s, hlast, hs⟩ := Option.map_eq_some_iff.mp ih.symm
        obtain ⟨rfl, hversion⟩ := Prod.mk.inj hs
        rw [changes_concat hlast]
        by_cases heq : r.text = text
        · simp [after, heq, ← hversion]
        · simp only [after, heq, if_false, Option.map_some, ← hversion]
          rfl

/-- The record holds the output that stands. -/
theorem ofEvents_output (events : List FileEvent) (v : Nat) (o : CompiledOutput) :
    (∃ r, ofEvents events = some r ∧ r.output = some (v, o)) ↔ Stands events v o := by
  induction events using List.reverseRecOn generalizing v o with
  | nil =>
    refine ⟨?_, fun h => absurd h (not_stands_nil v o)⟩
    rintro ⟨r, h, -⟩
    cases h
  | append_singleton events e ih =>
    have htext := ofEvents_text_version events
    rw [ofEvents_concat]
    cases e with
    | stored v' o' =>
      rw [stands_stored]
      cases hr : ofEvents events with
      | none =>
        rw [hr] at htext
        have hnil : texts events = [] :=
          List.getLast?_eq_none_iff.mp (Option.map_eq_none_iff.mp htext.symm)
        simp [after, hnil]
      | some r =>
        have hne : texts events ≠ [] := by
          intro hnil
          rw [hr, hnil] at htext
          cases htext
        simp [after, hne]
    | shown text =>
      rw [stands_shown, ← ih]
      cases hr : ofEvents events with
      | none => simp [after]
      | some r =>
        rw [hr] at htext
        obtain ⟨s, hlast, hs⟩ := Option.map_eq_some_iff.mp htext.symm
        obtain ⟨rfl, -⟩ := Prod.mk.inj hs
        by_cases heq : r.text = text
        · simp [after, heq, hlast]
        · simp [after, heq, hlast]

end FileRecord

/-! ## The table -/

namespace FileTable

/-- A call that writes to the table. -/
inductive Call where
  | update (p : Path) (text : Text)
  | store (p : Path) (projectVersion : Nat) (o : CompiledOutput)
  deriving DecidableEq, Repr

def perform (t : FileTable) : Call → FileTable
  | .update p text => (t.update p text).2
  | .store p v o => t.storeOutput p v o

/-- The table after some calls, one after the other. -/
def ofCalls (calls : List Call) : FileTable := calls.foldl perform {}

/-- What a call does to the file at a path. -/
def Call.event? (p : Path) : Call → Option FileEvent
  | update q text => if p.same q then some (.shown text) else none
  | store q v o => if p.same q then some (.stored v o) else none

/-- What the calls do to the file at a path. -/
def eventsAt (p : Path) (calls : List Call) : List FileEvent := calls.filterMap (Call.event? p)

theorem get?_update (t : FileTable) (p q : Path) (text : Text) :
    (t.update p text).2.get? q =
      if q.same p then FileRecord.after (t.get? q) (.shown text) else t.get? q := by
  by_cases hqp : q.same p = true
  · rw [if_pos hqp, get?_congr hqp, get?_congr hqp, update]
    cases h : t.get? p with
    | none => simp [FileRecord.after, get?_put, Path.same_refl]
    | some r =>
      by_cases hr : r.text = text
      · simp [FileRecord.after, hr, h]
      · simp [FileRecord.after, hr, get?_put, Path.same_refl]
  · rw [if_neg hqp]
    rcases update_cases t p text with ⟨-, hu⟩ | ⟨-, u, version, -, hu⟩
    · rw [hu]
    · rw [hu, get?_put, if_neg hqp]

theorem get?_perform (t : FileTable) (c : Call) (p : Path) :
    (t.perform c).get? p = (c.event? p).elim (t.get? p) (FileRecord.after (t.get? p)) := by
  cases c with
  | update q text =>
    rw [perform, get?_update, Call.event?]
    split <;> rfl
  | store q v o =>
    rw [perform, get?_storeOutput, Call.event?]
    split
    · rename_i hsame
      rw [← get?_congr hsame]
      cases t.get? p <;> rfl
    · rfl

/-- The record of a path follows from the calls for that path. -/
theorem get?_ofCalls (calls : List Call) (p : Path) :
    (ofCalls calls).get? p = FileRecord.ofEvents (eventsAt p calls) := by
  induction calls using List.reverseRecOn with
  | nil => rfl
  | append_singleton calls c ih =>
    have hrun : ofCalls (calls ++ [c]) = (ofCalls calls).perform c := by
      rw [ofCalls, List.foldl_append]
      rfl
    have hevents : eventsAt p (calls ++ [c]) = eventsAt p calls ++ (c.event? p).toList := by
      rw [eventsAt, List.filterMap_append]
      cases h : c.event? p <;> simp [h, eventsAt]
    rw [hrun, get?_perform, ih, hevents]
    cases c.event? p with
    | none => rw [Option.toList_none, List.append_nil]; rfl
    | some e => exact (FileRecord.ofEvents_concat _ e).symm

/-- What a table says of a path to which some events have come about. -/
structure Tells (t : FileTable) (p : Path) (events : List FileEvent) : Prop where
  text : t.text? p = (FileEvent.texts events).getLast?
  version : t.version? p =
    (FileEvent.texts events).getLast?.map fun _ => 1 + FileEvent.changes (FileEvent.texts events)
  output : ∀ v o, t.output? p v = some o ↔ FileEvent.Stands events v o

/-- After any calls a table says of each path what the calls for that path come to, and no
later text of the path gets a version that it has had. -/
theorem tells_ofCalls (calls later : List Call) (p : Path) :
    (ofCalls calls).Tells p (eventsAt p calls) ∧
      ∀ v, (ofCalls calls).version? p = some v → (ofCalls (calls ++ later)).version? p = some v →
        (ofCalls (calls ++ later)).text? p = (ofCalls calls).text? p := by
  have htells : ∀ calls, (ofCalls calls).Tells p (eventsAt p calls) := by
    intro calls
    have hrecord := get?_ofCalls calls p
    have hboth := FileRecord.ofEvents_text_version (eventsAt p calls)
    rw [← hrecord] at hboth
    refine ⟨?_, ?_, fun v o => ?_⟩
    · have hfirst := congrArg (Option.map Prod.fst) hboth
      simpa [text?, Option.map_map, Function.comp_def] using hfirst
    · have hsecond := congrArg (Option.map Prod.snd) hboth
      simpa [version?, Option.map_map, Function.comp_def] using hsecond
    · rw [output?_eq_some, hrecord, FileRecord.ofEvents_output]
  refine ⟨htells calls, fun v hv hv' => ?_⟩
  have hevents : eventsAt p (calls ++ later) = eventsAt p calls ++ eventsAt p later :=
    List.filterMap_append
  rw [(htells calls).version] at hv
  rw [(htells _).version, hevents, FileEvent.texts_append] at hv'
  obtain ⟨s, hlast, rfl⟩ := Option.map_eq_some_iff.mp hv
  obtain ⟨t, hlast', hcount⟩ := Option.map_eq_some_iff.mp hv'
  have hne : FileEvent.texts (eventsAt p calls) ≠ [] := by
    intro hnil
    rw [hnil] at hlast
    cases hlast
  rw [(htells _).text, (htells calls).text, hevents, FileEvent.texts_append]
  exact FileEvent.getLast?_append_of_changes hne _ (Nat.add_left_cancel hcount)

/-- A file shown under two spellings keeps its version while its text stays, and loses its
output with it. -/
theorem tells_ofCalls_respelled :
    let a := Path.ofString "/p/a.ts"
    let respelled := Path.ofString "/p/./a.ts"
    let o : CompiledOutput := ⟨"js", none⟩
    let calls : List Call := [.store a 1 o, .update a "a", .store respelled 3 o, .update a "a"]
    let later : List Call := [.update respelled "a", .update a "b"]
    (ofCalls calls).version? a = some 1 ∧
      (ofCalls (calls ++ later)).version? a = some 2 ∧
      (ofCalls (calls ++ later.take 1)).text? a = (ofCalls calls).text? a ∧
      (ofCalls calls).output? respelled 3 = some o ∧
      (ofCalls (calls ++ later)).output? respelled 3 = none := by
  refine ⟨by decide +kernel, by decide +kernel, ?_, by decide +kernel, by decide +kernel⟩
  exact (tells_ofCalls _ _ _).2 1 (by decide +kernel) (by decide +kernel)

end FileTable
end TestTransform

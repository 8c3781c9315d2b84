/-
The miniature compiler tells apart only what looks different.

Two hosts that look alike are asked the same question.  Step by step the same files are
looked at on both sides, so the answers are the same and the hosts look alike afterwards.
The names declared by the program's declaration files are the exception: the programs may
name their files in another number and order, so the lists differ, but not their elements.
-/
import TestTransform.Proofs.Compiler.Alike
import TestTransform.Proofs.Compiler.Apart

namespace TestTransform
namespace Miniature

open ServiceHost (Alike snapshot_grows snapshot_text)

variable {V W : Path → Prop} {d d' : Disk} {h h' : ServiceHost}

/-- Whether two questions have the same answer and leave hosts that look alike. -/
structure SameAnswer (V W : Path → Prop) (d d' : Disk) {α : Type}
    (a b : α × ServiceHost) : Prop where
  answer : a.1 = b.1
  host : Alike V W d d' a.2 b.2

section Steps

variable (hV : ∀ p : Path, p.IsDotted → V p) (hW : ∀ p : Path, W p → V p.normalize)
include hV hW

/-! ## Types of values -/

omit hW in
theorem resolveModule_alike (a : Alike V W d d' h h') (file : Path) (specifier : Text) :
    resolveModule (h.hasFile d.view) file specifier =
      resolveModule (h'.hasFile d'.view) file specifier :=
  resolveModule_congr (fun _ hp => a.isFile (hV _ hp.normalize)) file specifier

theorem snapshot_alike (a : Alike V W d d' h h') {file : Path} (hf : V file.normalize) :
    SameAnswer V W d d' (h.snapshot d.view file) (h'.snapshot d'.view file) :=
  ⟨a.snapshot_text hf, a.snapshot_host hV hW file⟩

theorem identifierType_alike (fuel : Nat) (a : Alike V W d d' h h') (file : Path)
    (text name : Text) (depth : Nat) :
    SameAnswer V W d d' (identifierType d.view fuel h file text name depth)
      (identifierType d'.view fuel h' file text name depth) := by
  induction fuel generalizing h h' file text name depth with
  | zero => exact ⟨rfl, a⟩
  | succ fuel ih =>
    rw [identifierType, identifierType]
    split
    · -- The name is declared in the file.
      split
      · exact ⟨rfl, a⟩
      · split
        · exact ⟨rfl, a⟩
        · split
          · exact ⟨rfl, a⟩
          · exact ih a file text _ _
    · -- The name is imported, or not known.
      split
      · exact ⟨rfl, a⟩
      · rename_i exported specifier _
        rw [resolveModule_alike hV a file specifier]
        split
        · exact ⟨rfl, a⟩
        · rename_i module hmodule
          have hs := snapshot_alike hV hW a (hV _ (isDotted_of_resolveModule hmodule).normalize)
          cases hl : h.snapshot d.view module with
          | mk t₁ h₁ =>
            cases hr : h'.snapshot d'.view module with
            | mk t₂ h₂ =>
              rw [hl, hr] at hs
              obtain ⟨rfl, ha⟩ := hs
              cases t₁ with
              | none => exact ⟨rfl, ha⟩
              | some t => exact ih ha module t exported _

theorem expressionType_alike (fuel : Nat) (a : Alike V W d d' h h') (file : Path)
    (text expression : Text) :
    SameAnswer V W d d' (expressionType d.view fuel h file text expression)
      (expressionType d'.view fuel h' file text expression) := by
  rw [expressionType, expressionType]
  split
  · exact ⟨rfl, a⟩
  · split
    · exact identifierType_alike hV hW fuel a file text expression 1
    · exact ⟨rfl, a⟩

theorem mismatchInLine_alike (fuel : Nat) (a : Alike V W d d' h h') (file : Path) (text : Text)
    (number : Nat) (line : Text) :
    SameAnswer V W d d' (mismatchInLine d.view fuel h file text number line)
      (mismatchInLine d'.view fuel h' file text number line) := by
  rw [mismatchInLine, mismatchInLine]
  split
  · exact ⟨rfl, a⟩
  · rename_i v _
    split
    · exact ⟨rfl, a⟩
    · have hs := expressionType_alike hV hW fuel a file text v.value
      cases hl : expressionType d.view fuel h file text v.value with
      | mk type₁ h₁ =>
        cases hr : expressionType d'.view fuel h' file text v.value with
        | mk type₂ h₂ =>
          rw [hl, hr] at hs
          obtain ⟨rfl, ha⟩ := hs
          cases type₁ with
          | found actual =>
            dsimp only
            split
            · exact ⟨rfl, ha⟩
            · exact ⟨rfl, ha⟩
          | unknown => exact ⟨rfl, ha⟩
          | unfinished => exact ⟨rfl, ha⟩

theorem mismatches_alike (fuel : Nat) (file : Path) (text : Text) (number : Nat)
    (lines : List Text) (a : Alike V W d d' h h') :
    SameAnswer V W d d' (mismatches d.view fuel file text number lines h)
      (mismatches d'.view fuel file text number lines h') := by
  induction lines generalizing number h h' with
  | nil => exact ⟨rfl, a⟩
  | cons line lines ih =>
    have hline := mismatchInLine_alike hV hW fuel a file text number line
    have hrest := ih (number + 1) hline.host
    rw [mismatches, mismatches]
    exact ⟨congrArg₂ Findings.append hline.answer hrest.answer, hrest.host⟩

/-! ## Names of declaration files -/

/-- A script that is read for the names it declares, and has a text. -/
structure Declares (view : FileView) (h : ServiceHost) (file script : Path) (text : Text) :
    Prop where
  other : script.same file = false
  declaration : script.isDeclaration = true
  text : h.read? view script = some text

omit hV hW in
theorem mem_globalsOfScripts (view : FileView) (file : Path) (scripts : List Path)
    (h : ServiceHost) (name : Text) :
    name ∈ (globalsOfScripts view file scripts h).1 ↔
      ∃ script ∈ scripts, ∃ text, Declares view h file script text ∧
        name ∈ declaredGlobals text := by
  induction scripts generalizing h with
  | nil => simp [globalsOfScripts]
  | cons script scripts ih =>
    have hrest : ∀ g, ServiceHost.Grows view h g →
        ((∃ s ∈ scripts, ∃ text, Declares view g file s text ∧ name ∈ declaredGlobals text) ↔
          ∃ s ∈ scripts, ∃ text, Declares view h file s text ∧ name ∈ declaredGlobals text) := by
      intro g hg
      constructor
      · rintro ⟨s, hs, t, ht, hn⟩
        exact ⟨s, hs, t, ⟨ht.other, ht.declaration, by rw [← ht.text, hg.read?_eq]⟩, hn⟩
      · rintro ⟨s, hs, t, ht, hn⟩
        exact ⟨s, hs, t, ⟨ht.other, ht.declaration, by rw [← ht.text, hg.read?_eq]⟩, hn⟩
    rw [globalsOfScripts]
    by_cases hscript : (!script.same file && script.isDeclaration) = true
    · rw [if_pos hscript]
      rw [Bool.and_eq_true, Bool.not_eq_true'] at hscript
      simp only [List.mem_append, ih, hrest _ (snapshot_grows h view script), snapshot_text,
        List.exists_mem_cons_iff]
      refine or_congr_left ?_
      constructor
      · intro hn
        cases ht : h.read? view script with
        | none =>
          rw [ht] at hn
          simp [declaredGlobals, Text.lines] at hn
        | some t =>
          rw [ht] at hn
          exact ⟨t, ⟨hscript.1, hscript.2, ht⟩, hn⟩
      · rintro ⟨t, ht, hn⟩
        rwa [ht.text]
    · rw [if_neg hscript, ih]
      simp only [List.exists_mem_cons_iff]
      refine ⟨.inr, ?_⟩
      rintro (⟨t, ht, -⟩ | hin)
      · exact absurd (by simp [ht.other, ht.declaration]) hscript
      · exact hin

omit hV hW in
theorem contains_globalsOfScripts (view : FileView) (file : Path) (scripts : List Path)
    (h : ServiceHost) (q : Path) :
    (globalsOfScripts view file scripts h).2.files.contains q = true ↔
      h.files.contains q = true ∨ ∃ script ∈ scripts, ∃ text,
        Declares view h file script text ∧ q.same script.normalize = true := by
  induction scripts generalizing h with
  | nil => simp [globalsOfScripts]
  | cons script scripts ih =>
    rw [globalsOfScripts]
    by_cases hscript : (!script.same file && script.isDeclaration) = true
    · rw [if_pos hscript]
      rw [Bool.and_eq_true, Bool.not_eq_true'] at hscript
      have hread := (snapshot_grows h view script).read?_eq
      simp only [ih, ServiceHost.contains_snapshot, Bool.or_eq_true, Bool.and_eq_true,
        List.exists_mem_cons_iff, Option.isSome_iff_exists]
      constructor
      · rintro ((hq | ⟨hq, t, ht⟩) | ⟨s, hs, t, ht, hq⟩)
        · exact .inl hq
        · exact .inr (.inl ⟨t, ⟨hscript.1, hscript.2, ht⟩, hq⟩)
        · exact .inr (.inr ⟨s, hs, t, ⟨ht.other, ht.declaration, by rw [← hread, ht.text]⟩, hq⟩)
      · rintro (hq | ⟨t, ht, hq⟩ | ⟨s, hs, t, ht, hq⟩)
        · exact .inl (.inl hq)
        · exact .inl (.inr ⟨hq, t, ht.text⟩)
        · exact .inr ⟨s, hs, t, ⟨ht.other, ht.declaration, by rw [hread, ht.text]⟩, hq⟩
    · rw [if_neg hscript, ih]
      simp only [List.exists_mem_cons_iff]
      constructor
      · rintro (hq | hq)
        · exact .inl hq
        · exact .inr (.inr hq)
      · rintro (hq | ⟨t, ht, -⟩ | hq)
        · exact .inl hq
        · exact absurd (by simp [ht.other, ht.declaration]) hscript
        · exact .inr hq

omit hV hW in
theorem isScript_globalsOfScripts (view : FileView) (file : Path) (scripts : List Path)
    (h : ServiceHost) (q : Path) :
    (globalsOfScripts view file scripts h).2.isScript q = true ↔
      h.isScript q = true ∨ ∃ script ∈ scripts, ∃ text,
        Declares view h file script text ∧ q.same script.normalize = true := by
  rw [ServiceHost.isScript, Bool.or_eq_true, contains_globalsOfScripts,
    (globalsOfScripts_grows view file scripts h).isRoot_eq, ServiceHost.isScript,
    Bool.or_eq_true, or_right_comm]

omit hW in
/-- The same texts are read for their names, under whatever names the programs have. -/
theorem exists_declares (a : Alike V W d d' h h') {file script : Path} {text : Text}
    (hmem : script ∈ h.scriptNames) (hd : Declares d.view h file script text) :
    ∃ script' ∈ h'.scriptNames, Declares d'.view h' file script' text ∧
      script'.normalize = script.normalize := by
  obtain ⟨script', hmem', hsame⟩ := a.exists_name hd.declaration hmem
  have hn := Path.normalize_congr hsame
  have hdotted := (Path.isDotted_of_isDeclaration hd.declaration).normalize
  refine ⟨script', hmem', ⟨?_, ?_, ?_⟩, hn⟩
  · rw [← hd.other, Path.same, Path.same, Path.same_iff.mp hsame]
  · rw [Path.isDeclaration_congr hsame, hd.declaration]
  · have hread := a.read (p := script) (hV _ hdotted)
    rw [ServiceHost.read?_eq_or, hn, ← ServiceHost.read?_eq_or, ← hread, hd.text]

omit hW in
/-- Both programs declare the same names, and the same files are looked at for them. -/
theorem globalsOfScripts_alike (a : Alike V W d d' h h') (file : Path) :
    (∀ name, name ∈ (globalsOfScripts d.view file h.scriptNames h).1 ↔
        name ∈ (globalsOfScripts d'.view file h'.scriptNames h').1) ∧
      Alike V W d d' (globalsOfScripts d.view file h.scriptNames h).2
        (globalsOfScripts d'.view file h'.scriptNames h').2 := by
  have hg := globalsOfScripts_grows d.view file h.scriptNames h
  have hg' := globalsOfScripts_grows d'.view file h'.scriptNames h'
  have hlooked : ∀ q : Path,
      (∃ s ∈ h.scriptNames, ∃ t, Declares d.view h file s t ∧ q.same s.normalize = true) ↔
        ∃ s ∈ h'.scriptNames, ∃ t, Declares d'.view h' file s t ∧ q.same s.normalize = true := by
    intro q
    constructor
    · rintro ⟨s, hs, t, ht, hq⟩
      obtain ⟨s', hs', ht', hn⟩ := exists_declares hV a hs ht
      exact ⟨s', hs', t, ht', hn ▸ hq⟩
    · rintro ⟨s, hs, t, ht, hq⟩
      obtain ⟨s', hs', ht', hn⟩ := exists_declares hV a.symm hs ht
      exact ⟨s', hs', t, ht', hn ▸ hq⟩
  refine ⟨?_, ?_, ?_, ?_⟩
  · intro name
    rw [mem_globalsOfScripts, mem_globalsOfScripts]
    constructor
    · rintro ⟨s, hs, t, ht, hn⟩
      obtain ⟨s', hs', ht', -⟩ := exists_declares hV a hs ht
      exact ⟨s', hs', t, ht', hn⟩
    · rintro ⟨s, hs, t, ht, hn⟩
      obtain ⟨s', hs', ht', -⟩ := exists_declares hV a.symm hs ht
      exact ⟨s', hs', t, ht', hn⟩
  · intro p hp
    rw [hg.picture_eq, hg'.picture_eq]
    exact a.shows p hp
  · intro p hp
    rw [Bool.eq_iff_iff, isScript_globalsOfScripts, isScript_globalsOfScripts, a.scripts p hp,
      hlooked p]
  · intro p hp
    rw [Bool.eq_iff_iff, contains_globalsOfScripts, contains_globalsOfScripts, a.loaded p hp,
      hlooked p]

omit hV hW in
theorem undeclaredInLine_congr {declared declared' : List Text}
    (hmem : ∀ name, name ∈ declared ↔ name ∈ declared') (file : Path) (number : Nat)
    (line : Text) :
    undeclaredInLine file declared number line = undeclaredInLine file declared' number line := by
  have hcontains : ∀ name, declared.contains name = declared'.contains name := by
    intro name
    rw [Bool.eq_iff_iff, List.contains_iff_mem, List.contains_iff_mem]
    exact hmem name
  simp only [undeclaredInLine, hcontains]

/-! ## All mistakes -/

theorem semanticDiagnostics_alike (fuel : Nat) (a : Alike V W d d' h h') {file : Path}
    (hf : V file.normalize) :
    SameAnswer V W d d' (semanticDiagnostics d.view fuel h file)
      (semanticDiagnostics d'.view fuel h' file) := by
  have hs := snapshot_alike hV hW a hf
  rw [semanticDiagnostics, semanticDiagnostics]
  cases hl : h.snapshot d.view file with
  | mk t₁ h₁ =>
    cases hr : h'.snapshot d'.view file with
    | mk t₂ h₂ =>
      rw [hl, hr] at hs
      obtain ⟨rfl, ha⟩ := hs
      cases t₁ with
      | none => exact ⟨rfl, ha⟩
      | some text =>
        obtain ⟨hnames, hglobals⟩ := globalsOfScripts_alike hV ha file
        have hwrong := mismatches_alike hV hW fuel file text 0 (Text.lines text) hglobals
        have hdeclared : ∀ name,
            name ∈ declaredGlobals text ++ (globalsOfScripts d.view file h₁.scriptNames h₁).1 ↔
              name ∈ declaredGlobals text ++
                (globalsOfScripts d'.view file h₂.scriptNames h₂).1 := by
          intro name
          rw [List.mem_append, List.mem_append, hnames]
        refine ⟨?_, hwrong.host⟩
        refine congrArg₂ (fun ds (found : Findings) =>
          { found with diagnostics := ds ++ found.diagnostics }) ?_ hwrong.answer
        refine List.flatMap_congr fun e _ => ?_
        exact undeclaredInLine_congr hdeclared file e.2 e.1

end Steps

end Miniature
end TestTransform

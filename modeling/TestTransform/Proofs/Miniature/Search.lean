/-
When a check of types comes to an end.

A search for the type of a name goes on in the file of the name at most eight times, but from
file to file as long as it finds imports.  Where it goes from a name depends on the picture of
the project alone, which no search changes.  So a search that comes to a name from which imports
lead back to that name goes on for ever.  If imports never lead back to a name of the same file,
each step through an import leaves fewer pairs of a file and an imported name to come to, and
there is an end.
-/
import Mathlib.Data.List.ProdSigma
import Mathlib.Data.Set.Card
import Mathlib.Logic.Relation
import TestTransform.Proofs.Compiler.Modules

namespace TestTransform
namespace Miniature

open Relation (ReflTransGen TransGen)
open ServiceHost (Grows snapshot_grows snapshot_text)

/-! ## Searches that end -/

section Steady

variable (view : FileView)

/-- A search ends at once, or goes on with other arguments. -/
theorem identifierType_cases (h : ServiceHost) (file : Path) (text name : Text) (depth : Nat) :
    (∃ outcome h', outcome ≠ .unfinished ∧
      ∀ fuel, identifierType view (fuel + 1) h file text name depth = (outcome, h')) ∨
    ∃ h' file' text' name', ∀ fuel, identifierType view (fuel + 1) h file text name depth =
      identifierType view fuel h' file' text' name' (depth + 1) := by
  cases hfind : ((Text.lines text).filterMap valueLine?).find? fun v => v.name == name with
  | some v =>
    -- The name is declared in the file.
    cases hdeclared : v.declared with
    | some type =>
      exact .inl ⟨.found type, h, by simp, fun fuel => by simp only [identifierType, hfind, hdeclared]⟩
    | none =>
      cases hliteral : literalType? v.value with
      | some type =>
        exact .inl ⟨.found type, h, by simp, fun fuel => by
          simp only [identifierType, hfind, hdeclared, hliteral]⟩
      | none =>
        by_cases hstop : (decide (depth > 8) || !Pattern.isMatch identifier v.value) = true
        · exact .inl ⟨.unknown, h, by simp, fun fuel => by
            simp only [identifierType, hfind, hdeclared, hliteral, if_pos hstop]⟩
        · exact .inr ⟨h, file, text, v.value, fun fuel => by
            simp only [identifierType, hfind, hdeclared, hliteral, if_neg hstop]⟩
  | none =>
    -- The name is imported, or not known.
    cases himport : importOf? text name with
    | none =>
      exact .inl ⟨.unknown, h, by simp, fun fuel => by simp only [identifierType, hfind, himport]⟩
    | some imported =>
      obtain ⟨exported, specifier⟩ := imported
      cases hmodule : resolveModule (h.hasFile view) file specifier with
      | none =>
        exact .inl ⟨.unknown, h, by simp, fun fuel => by
          simp only [identifierType, hfind, himport, hmodule]⟩
      | some module =>
        cases hsnapshot : h.snapshot view module with
        | mk moduleText h' =>
          cases moduleText with
          | none =>
            exact .inl ⟨.unknown, h', by simp, fun fuel => by
              simp only [identifierType, hfind, himport, hmodule, hsnapshot]⟩
          | some moduleText =>
            exact .inr ⟨h', module, moduleText, exported, fun fuel => by
              simp only [identifierType, hfind, himport, hmodule, hsnapshot]⟩

/-- A search that ends does the same with more fuel. -/
theorem identifierType_steady {fuel more : Nat} (hle : fuel ≤ more) {h : ServiceHost} {file : Path}
    {text name : Text} {depth : Nat}
    (hends : (identifierType view fuel h file text name depth).1 ≠ .unfinished) :
    identifierType view more h file text name depth =
      identifierType view fuel h file text name depth := by
  induction fuel generalizing more h file text name depth with
  | zero => exact absurd rfl hends
  | succ fuel ih =>
    obtain ⟨more, rfl⟩ := Nat.exists_eq_add_of_le' (Nat.lt_of_lt_of_le (Nat.succ_pos fuel) hle)
    rcases identifierType_cases view h file text name depth with
      ⟨outcome, h', -, hend⟩ | ⟨h', file', text', name', hon⟩
    · rw [hend, hend]
    · rw [hon] at hends ⊢
      rw [hon]
      exact ih (Nat.succ_le_succ_iff.mp hle) hends

theorem expressionType_steady {fuel more : Nat} (hle : fuel ≤ more) {h : ServiceHost} {file : Path}
    {text expression : Text}
    (hends : (expressionType view fuel h file text expression).1 ≠ .unfinished) :
    expressionType view more h file text expression =
      expressionType view fuel h file text expression := by
  rw [expressionType] at hends ⊢
  rw [expressionType]
  cases hliteral : literalType? expression with
  | some type => rfl
  | none =>
    rw [hliteral] at hends
    by_cases hname : Pattern.isMatch identifier expression = true
    · simp only [if_pos hname] at hends ⊢
      exact identifierType_steady view hle hends
    · simp only [if_neg hname]

theorem mismatchInLine_steady {fuel more : Nat} (hle : fuel ≤ more) {h : ServiceHost} {file : Path}
    {text : Text} {number : Nat} {line : Text}
    (hends : (mismatchInLine view fuel h file text number line).1.ended = true) :
    mismatchInLine view more h file text number line =
      mismatchInLine view fuel h file text number line := by
  rw [mismatchInLine] at hends ⊢
  rw [mismatchInLine]
  cases hline : valueLine? line with
  | none => rfl
  | some v =>
    cases hdeclared : v.declared.filter primitives.contains with
    | none => simp only [hdeclared]
    | some declared =>
      simp only [hline, hdeclared] at hends ⊢
      have hsearch : (expressionType view fuel h file text v.value).1 ≠ .unfinished := by
        intro heq
        cases hresult : expressionType view fuel h file text v.value with
        | mk outcome h' =>
          rw [hresult] at heq hends
          cases heq
          cases hends
      rw [expressionType_steady view hle hsearch]

theorem mismatches_steady {fuel more : Nat} (hle : fuel ≤ more) {file : Path} {text : Text}
    {number : Nat} {lines : List Text} {h : ServiceHost}
    (hends : (mismatches view fuel file text number lines h).1.ended = true) :
    mismatches view more file text number lines h =
      mismatches view fuel file text number lines h := by
  induction lines generalizing number h with
  | nil => rfl
  | cons line lines ih =>
    rw [mismatches] at hends
    simp only [Findings.append, Bool.and_eq_true] at hends
    rw [mismatches, mismatches]
    simp only [mismatchInLine_steady view hle hends.1, ih hends.2]

theorem semanticDiagnostics_steady {fuel more : Nat} (hle : fuel ≤ more) {h : ServiceHost}
    {file : Path} (hends : (semanticDiagnostics view fuel h file).1.ended = true) :
    semanticDiagnostics view more h file = semanticDiagnostics view fuel h file := by
  rw [semanticDiagnostics] at hends ⊢
  rw [semanticDiagnostics]
  cases hsnapshot : h.snapshot view file with
  | mk text h' =>
    cases text with
    | none => rfl
    | some text =>
      simp only [hsnapshot] at hends ⊢
      rw [mismatches_steady view hle hends]

end Steady

/-! ## Searches in a picture -/

/-- A name as it stands in a file. -/
structure Reference where
  file : Path
  name : Text
  deriving DecidableEq

/-- Where a search goes from a name. -/
inductive Onward where
  /-- It ends, with a type or without. -/
  | ends (type : Option Text)
  /-- It goes on with another name of the file. -/
  | within (name : Text)
  /-- It goes on in another file. -/
  | outward (target : Reference)
  deriving DecidableEq

/-- Where a search goes from a name in a picture of a project, as long as it counts few steps. -/
def onward (pic : Picture) (r : Reference) : Onward :=
  match (pic r.file.normalize).text with
  | none => .ends none
  | some text =>
    match ((Text.lines text).filterMap valueLine?).find? fun v => v.name == r.name with
    | some v =>
      match v.declared.or (literalType? v.value) with
      | some type => .ends (some type)
      | none => if Pattern.isMatch identifier v.value then .within v.value else .ends none
    | none =>
      match importOf? text r.name with
      | none => .ends none
      | some (exported, specifier) =>
        match resolveModule (fun p => (pic p.normalize).isFile) r.file specifier with
        | none => .ends none
        | some module =>
          if (pic module.normalize).text.isSome then .outward ⟨module, exported⟩ else .ends none

/-- What a search has come to that ends. -/
def TypeSearch.ofType? : Option Text → TypeSearch
  | some type => .found type
  | none => .unknown

/-- The search for the type of a name in a picture. -/
def search (pic : Picture) : (fuel : Nat) → Reference → (depth : Nat) → TypeSearch
  | 0, _, _ => .unfinished
  | fuel + 1, r, depth =>
    match onward pic r with
    | .ends type => .ofType? type
    | .within name => if depth > 8 then .unknown else search pic fuel { r with name } (depth + 1)
    | .outward target => search pic fuel target (depth + 1)

section Searches

variable {d : Disk} {h : ServiceHost}

theorem text_picture (h : ServiceHost) (p : Path) :
    (h.picture d.view p.normalize).text = h.read? d.view p := by
  simp only [ServiceHost.picture, ServiceHost.read?, Path.normalize_normalize]

theorem isFile_picture (h : ServiceHost) (p : Path) :
    (h.picture d.view p.normalize).isFile = h.hasFile d.view p := by
  simp only [ServiceHost.picture, ServiceHost.hasFile, Path.normalize_normalize]

/-- A search takes files in, but it is one in the picture that it begins with. -/
theorem identifierType_eq_search (fuel : Nat) {file : Path} {text : Text}
    (ht : h.read? d.view file = some text) (name : Text) (depth : Nat) :
    (identifierType d.view fuel h file text name depth).1 =
      search (h.picture d.view) fuel ⟨file, name⟩ depth := by
  induction fuel generalizing h file text name depth with
  | zero => rfl
  | succ fuel ih =>
    simp only [search, onward, text_picture, isFile_picture, ht]
    rw [identifierType]
    cases hfind : ((Text.lines text).filterMap valueLine?).find? fun v => v.name == name with
    | some v =>
      cases hdeclared : v.declared with
      | some type => simp only [hdeclared, Option.some_or, TypeSearch.ofType?]
      | none =>
        cases hliteral : literalType? v.value with
        | some type => simp only [hdeclared, hliteral, Option.none_or, TypeSearch.ofType?]
        | none =>
          simp only [hdeclared, hliteral, Option.none_or]
          cases hname : Pattern.isMatch identifier v.value with
          | false => simp [TypeSearch.ofType?]
          | true =>
            by_cases hdepth : depth > 8
            · simp [hdepth]
            · simp [hdepth, ih ht]
    | none =>
      cases himport : importOf? text name with
      | none => rfl
      | some imported =>
        obtain ⟨exported, specifier⟩ := imported
        cases hmodule : resolveModule (h.hasFile d.view) file specifier with
        | none => simp only [hmodule, TypeSearch.ofType?]
        | some module =>
          have htext := snapshot_text h d.view module
          have hg := snapshot_grows h d.view module
          simp only [hmodule]
          cases hsnapshot : h.snapshot d.view module with
          | mk moduleText h' =>
            rw [hsnapshot] at htext hg
            replace htext : moduleText = h.read? d.view module := htext
            cases moduleText with
            | none => simp [← htext, TypeSearch.ofType?]
            | some moduleText =>
              have hread : h'.read? d.view module = some moduleText := by
                rw [hg.read?_eq, htext]
              simp [← htext, ih hread, hg.picture_eq]

/-- The name that the check of a line searches for: the value of an annotated declaration, if it
is a name and the annotation is one that is checked. -/
def sought? (line : Text) : Option Text :=
  (valueLine? line).bind fun v =>
    if (v.declared.filter primitives.contains).isSome && (literalType? v.value).isNone &&
        Pattern.isMatch identifier v.value then some v.value
    else none

/-- The names that the check of a file searches for. -/
def Asked (pic : Picture) (file : Path) (r : Reference) : Prop :=
  ∃ text, (pic file.normalize).text = some text ∧ ∃ line ∈ Text.lines text,
    sought? line = some r.name ∧ r.file = file

theorem ended_mismatchInLine (fuel : Nat) {file : Path} {text : Text}
    (ht : h.read? d.view file = some text) (number : Nat) (line : Text) :
    (mismatchInLine d.view fuel h file text number line).1.ended = true ↔
      ∀ name, sought? line = some name →
        search (h.picture d.view) fuel ⟨file, name⟩ 1 ≠ .unfinished := by
  have hnone : sought? line = none → (∀ name, sought? line = some name →
      search (h.picture d.view) fuel ⟨file, name⟩ 1 ≠ .unfinished) := fun hs name hname => by
    rw [hs] at hname
    cases hname
  rw [mismatchInLine]
  cases hline : valueLine? line with
  | none => exact iff_of_true rfl (hnone (by rw [sought?, hline]; rfl))
  | some v =>
    cases hdeclared : v.declared.filter primitives.contains with
    | none =>
      simp only [hdeclared]
      exact iff_of_true trivial (hnone (by rw [sought?, hline, Option.bind_some, hdeclared]; rfl))
    | some declared =>
      simp only [hdeclared, expressionType]
      cases hliteral : literalType? v.value with
      | some type =>
        refine iff_of_true ?_ (hnone ?_)
        · dsimp only
          split <;> rfl
        · rw [sought?, hline, Option.bind_some, hdeclared, hliteral]
          rfl
      | none =>
        cases hname : Pattern.isMatch identifier v.value with
        | false =>
          refine iff_of_true rfl (hnone ?_)
          rw [sought?, hline, Option.bind_some, hdeclared, hliteral, hname]
          rfl
        | true =>
          have hsought : sought? line = some v.value := by
            rw [sought?, hline, Option.bind_some, hdeclared, hliteral, hname]
            rfl
          have hsearch := identifierType_eq_search fuel ht v.value 1
          simp only [if_true, hsought, Option.some.injEq, forall_eq', ← hsearch]
          cases hresult : identifierType d.view fuel h file text v.value 1 with
          | mk outcome h' =>
            cases outcome with
            | found actual =>
              dsimp only
              split <;> simp
            | unknown => simp
            | unfinished => simp

theorem ended_mismatches (fuel : Nat) {file : Path} {text : Text}
    (ht : h.read? d.view file = some text) (number : Nat) (lines : List Text) :
    (mismatches d.view fuel file text number lines h).1.ended = true ↔
      ∀ line ∈ lines, ∀ name, sought? line = some name →
        search (h.picture d.view) fuel ⟨file, name⟩ 1 ≠ .unfinished := by
  induction lines generalizing h number with
  | nil => simp [mismatches]
  | cons line lines ih =>
    have hg := mismatchInLine_grows d.view fuel h file text number line
    have hread : (mismatchInLine d.view fuel h file text number line).2.read? d.view file =
        some text := by rw [hg.read?_eq, ht]
    rw [mismatches]
    simp only [Findings.append, Bool.and_eq_true, ended_mismatchInLine fuel ht, ih hread,
      hg.picture_eq, List.forall_mem_cons]

/-- A check ends if all its searches do. -/
theorem ended_semanticDiagnostics (d : Disk) (fuel : Nat) (h : ServiceHost) (file : Path) :
    (semanticDiagnostics d.view fuel h file).1.ended = true ↔
      ∀ r, Asked (h.picture d.view) file r → search (h.picture d.view) fuel r 1 ≠ .unfinished := by
  have htext := snapshot_text h d.view file
  have hg := snapshot_grows h d.view file
  rw [semanticDiagnostics]
  cases hsnapshot : h.snapshot d.view file with
  | mk text h' =>
    rw [hsnapshot] at htext hg
    replace htext : text = h.read? d.view file := htext
    cases text with
    | none => simp [Asked, text_picture, ← htext]
    | some text =>
      have hglobals := hg.trans (globalsOfScripts_grows d.view file h'.scriptNames h')
      have hread : (globalsOfScripts d.view file h'.scriptNames h').2.read? d.view file =
          some text := by rw [hglobals.read?_eq, ← htext]
      dsimp only
      rw [ended_mismatches fuel hread, hglobals.picture_eq]
      constructor
      · rintro hall ⟨_, name⟩ ⟨t, ht, line, hline, hname, rfl⟩
        rw [text_picture, ← htext] at ht
        cases ht
        exact hall line hline name hname
      · intro hall line hline name hname
        exact hall ⟨file, name⟩ ⟨text, by rw [text_picture, ← htext], line, hline, hname, rfl⟩

end Searches

/-! ## Names that a search comes to -/

/-- A step of a search, with the number that the steps are counted in. -/
inductive Step (pic : Picture) : Reference × Nat → Reference × Nat → Prop where
  | within {r : Reference} {name : Text} {depth : Nat} : onward pic r = .within name → depth ≤ 8 →
      Step pic (r, depth) ({ r with name }, depth + 1)
  | outward {r target : Reference} {depth : Nat} : onward pic r = .outward target →
      Step pic (r, depth) (target, depth + 1)

/-- A step through an import. -/
def Imports (pic : Picture) (r target : Reference) : Prop := onward pic r = .outward target

/-- The names that the searches of a check come to. -/
def Reached (pic : Picture) (file : Path) (r : Reference) : Prop :=
  ∃ asked depth, Asked pic file asked ∧ ReflTransGen (Step pic) (asked, 1) (r, depth)

/-- Whether imports lead from a name that a check comes to back to it, or to one that counts as
the same. -/
def Circles (pic : Picture) (file : Path) (same : Reference → Reference → Prop) : Prop :=
  ∃ r target, Reached pic file r ∧ TransGen (Imports pic) r target ∧ same target r

section Steps

variable {pic : Picture} {r target : Reference} {s t : Reference × Nat}

theorem search_of_step (hs : Step pic s t) (fuel : Nat) :
    search pic (fuel + 1) s.1 s.2 = search pic fuel t.1 t.2 := by
  cases hs with
  | within hon hdepth => simp only [search, hon, if_neg (Nat.not_lt.mpr hdepth)]
  | outward hon => simp only [search, hon]

/-- A search that goes on for ever from a name does so from all names that lead there. -/
theorem search_unfinished_of_steps (hs : ReflTransGen (Step pic) s t)
    (ht : ∀ fuel, search pic fuel t.1 t.2 = .unfinished) :
    ∀ fuel, search pic fuel s.1 s.2 = .unfinished := by
  induction hs using ReflTransGen.head_induction_on with
  | refl => exact ht
  | head hstep _ ih =>
    intro fuel
    cases fuel with
    | zero => rfl
    | succ fuel => rw [search_of_step hstep, ih]

/-- From a name on a circle of imports a search goes on for ever. -/
theorem search_unfinished_of_circle (hr : TransGen (Imports pic) r r) (fuel depth : Nat) :
    search pic fuel r depth = .unfinished := by
  induction fuel generalizing r depth with
  | zero => rfl
  | succ fuel ih =>
    obtain ⟨target, hstep, hback⟩ := TransGen.head'_iff.mp hr
    have hfirst : Step pic (r, depth) (target, depth + 1) := .outward hstep
    rw [search_of_step hfirst]
    exact ih (TransGen.tail' hback hstep) (depth + 1)

end Steps

/-! ## How far imports lead -/

/-- The names that a text imports, as they are called where they come from. -/
def importedNames (text : Text) : List Text :=
  (Text.lines text).flatMap fun line =>
    match Pattern.search importNamed line with
    | none => []
    | some m => (Text.splitOn ',' (m.textOf line 1)).filterMap fun binding =>
        ((Text.splitOnText " as " binding).map Text.trim).head?

theorem mem_importedNames {text name exported specifier : Text}
    (h : importOf? text name = some (exported, specifier)) : exported ∈ importedNames text := by
  obtain ⟨line, hline, hfound⟩ := List.exists_of_findSome?_eq_some h
  obtain ⟨m, hm, hfound⟩ := Option.bind_eq_some_iff.mp hfound
  obtain ⟨exported', hbound, heq⟩ := Option.map_eq_some_iff.mp hfound
  cases heq
  obtain ⟨binding, hbinding, hname⟩ := List.exists_of_findSome?_eq_some hbound
  refine List.mem_flatMap.mpr ⟨line, hline, ?_⟩
  rw [hm]
  refine List.mem_filterMap.mpr ⟨binding, hbinding, ?_⟩
  cases hparts : (Text.splitOnText " as " binding).map Text.trim with
  | nil =>
    simp only [exportedName?, hparts] at hname
    cases hname
  | cons first rest =>
    simp only [exportedName?, hparts] at hname
    split at hname
    · exact hname
    · cases hname

/-- What a name is told from others by: its file, however it is spelled, and the name. -/
def Reference.key (r : Reference) : Path × Text := (r.file.normalize, r.name)

/-- The names that some of the files import, in each of the files. -/
def importables (pic : Picture) (files : List Path) : List (Path × Text) :=
  files.product (files.flatMap fun f => ((pic f).text.map importedNames).getD [])

section Bounds

variable {pic : Picture} {files : List Path} {r target : Reference}

theorem exists_of_imports (h : Imports pic r target) :
    ∃ text specifier, (pic r.file.normalize).text = some text ∧
      importOf? text r.name = some (target.name, specifier) ∧
      (pic target.file.normalize).isFile = true := by
  rw [Imports, onward] at h
  split at h
  · cases h
  · rename_i text ht
    split at h
    · split at h
      · cases h
      · split at h <;> cases h
    · split at h
      · cases h
      · rename_i exported specifier himport
        split at h
        · cases h
        · rename_i module hmodule
          split at h
          · cases h
            exact ⟨text, specifier, ht, himport,
              List.find?_some (p := fun p : Path => (pic p.normalize).isFile) hmodule⟩
          · cases h

/-- Whether all files of a picture are in a list. -/
structure Lists (files : List Path) (pic : Picture) : Prop where
  file : ∀ p : Path, (pic p.normalize).isFile = true → p.normalize ∈ files
  text : ∀ p : Path, (pic p.normalize).text.isSome → p.normalize ∈ files

theorem key_mem_importables (hfiles : Lists files pic) (h : Imports pic r target) :
    target.key ∈ importables pic files := by
  obtain ⟨text, specifier, ht, himport, hfile⟩ := exists_of_imports h
  refine List.pair_mem_product.mpr ⟨hfiles.file _ hfile, List.mem_flatMap.mpr ⟨r.file.normalize,
    hfiles.text _ (by rw [ht]; rfl), ?_⟩⟩
  rw [ht]
  exact mem_importedNames himport

/-- The pairs of a file and a name that imports lead to. -/
def ahead (pic : Picture) (r : Reference) : Set (Path × Text) :=
  Reference.key '' {target | TransGen (Imports pic) r target}

theorem ahead_subset (hfiles : Lists files pic) (r : Reference) :
    ahead pic r ⊆ (importables pic files).toFinset := by
  rintro _ ⟨target, htarget, rfl⟩
  obtain ⟨q, -, hlast⟩ := TransGen.tail'_iff.mp htarget
  exact Finset.mem_coe.mpr (List.mem_toFinset.mpr (key_mem_importables hfiles hlast))

theorem ncard_ahead_le (hfiles : Lists files pic) (r : Reference) :
    (ahead pic r).ncard ≤ (importables pic files).length := by
  have hcard := Set.ncard_le_ncard (ahead_subset hfiles r) (Finset.finite_toSet _)
  rw [Set.ncard_coe_finset] at hcard
  exact hcard.trans (List.toFinset_card_le _)

/-- A step through an import to a name that imports do not lead back to leaves less ahead. -/
theorem ncard_ahead_lt (hfiles : Lists files pic) (h : Imports pic r target)
    (hcalm : ∀ q, TransGen (Imports pic) target q → q.key ≠ target.key) :
    (ahead pic target).ncard < (ahead pic r).ncard := by
  refine Set.ncard_lt_ncard (Set.ssubset_iff_of_subset ?_ |>.mpr ⟨target.key, ?_, ?_⟩)
    ((Finset.finite_toSet _).subset (ahead_subset hfiles r))
  · rintro _ ⟨q, hq, rfl⟩
    exact ⟨q, TransGen.head h hq, rfl⟩
  · exact ⟨target, .single h, rfl⟩
  · rintro ⟨q, hq, hkey⟩
    exact hcalm q hq hkey

/-- Whether imports lead from no name that a search comes to back to it. -/
def Calm (pic : Picture) (s : Reference × Nat) : Prop :=
  ∀ t, ReflTransGen (Step pic) s t → ∀ q, TransGen (Imports pic) t.1 q → q.key ≠ t.1.key

theorem Calm.step {s t : Reference × Nat} (hs : Calm pic s) (hstep : Step pic s t) : Calm pic t :=
  fun u hu => hs u (.head hstep hu)

theorem ofType?_ne (type : Option Text) : TypeSearch.ofType? type ≠ .unfinished := by
  cases type <;> exact nofun

/-- Once a search goes through imports only, what is ahead bounds its steps. -/
theorem search_ends_of_ahead (hfiles : Lists files pic) {depth fuel : Nat} (hdepth : 8 < depth)
    (hcalm : Calm pic (r, depth)) (hfuel : (ahead pic r).ncard < fuel) :
    search pic fuel r depth ≠ .unfinished := by
  induction fuel generalizing r depth with
  | zero => omega
  | succ fuel ih =>
    rw [search]
    cases hon : onward pic r with
    | ends type => exact ofType?_ne type
    | within name =>
      simp only [if_pos hdepth]
      exact nofun
    | outward target =>
      have hstep : Step pic (r, depth) (target, depth + 1) := .outward hon
      have hless := ncard_ahead_lt hfiles hon (hcalm _ (.single hstep))
      exact ih (Nat.lt_succ_of_lt hdepth) (hcalm.step hstep) (by omega)

/-- Before that it goes on eight times at most. -/
theorem search_ends (hfiles : Lists files pic) {depth fuel : Nat} (hcalm : Calm pic (r, depth))
    (hfuel : 9 - depth + (importables pic files).length < fuel) :
    search pic fuel r depth ≠ .unfinished := by
  induction fuel generalizing r depth with
  | zero => omega
  | succ fuel ih =>
    by_cases hdepth : 8 < depth
    · have hahead := ncard_ahead_le hfiles r
      exact search_ends_of_ahead hfiles hdepth hcalm (by omega)
    · rw [search]
      cases hon : onward pic r with
      | ends type => exact ofType?_ne type
      | within name =>
        simp only [if_neg hdepth]
        exact ih (hcalm.step (.within hon (by omega))) (by omega)
      | outward target => exact ih (hcalm.step (.outward hon)) (by omega)

end Bounds

/-! ## Checks -/

/-- All files that a host knows or a disk has. -/
def filesOf (d : Disk) (h : ServiceHost) : List Path :=
  (h.files.paths ++ d.store.paths).map Path.normalize

theorem lists_filesOf (d : Disk) (h : ServiceHost) : Lists (filesOf d h) (h.picture d.view) := by
  have hfile : ∀ p : Path, (h.picture d.view p.normalize).isFile = true →
      p.normalize ∈ filesOf d h := by
    intro p hp
    rw [isFile_picture, ServiceHost.hasFile, Bool.or_eq_true, FileTable.contains_iff_paths] at hp
    rcases hp with ⟨q, hq, hsame⟩ | hstore
    · refine List.mem_map.mpr ⟨q, List.mem_append_left _ hq, ?_⟩
      rw [Path.normalize_congr hsame, Path.normalize_normalize]
    · obtain ⟨f, hf⟩ := Option.isSome_iff_exists.mp hstore
      obtain ⟨q, hq, hmem⟩ := Assoc.mem_of_find? hf
      refine List.mem_map.mpr ⟨q, List.mem_append_right _ (List.mem_map_of_mem hmem), ?_⟩
      rw [← Path.normalize_congr (Path.cmp_eq_iff_same.mp hq), Path.normalize_normalize,
        Path.normalize_normalize]
  refine ⟨hfile, fun p hp => hfile p ?_⟩
  obtain ⟨text, ht⟩ := Option.isSome_iff_exists.mp hp
  rw [text_picture, ServiceHost.read?_eq_or] at ht
  rw [isFile_picture, ServiceHost.hasFile_eq_or]
  cases hknown : h.files.text? p.normalize with
  | some t => rfl
  | none =>
    rw [hknown, Option.none_or] at ht
    exact Disk.hasFile_of_read? ht

/-- When the check of a file comes to an end. -/
structure CheckEnds (d : Disk) (h : ServiceHost) (file : Path) : Prop where
  /-- A check that ends finds the same with more fuel. -/
  steady : ∀ fuel more, fuel ≤ more →
    (semanticDiagnostics d.view fuel h file).1.ended = true →
      semanticDiagnostics d.view more h file = semanticDiagnostics d.view fuel h file
  /-- A check ends unless imports lead back to a name of the same file. -/
  ends : ¬ Circles (h.picture d.view) file (fun q r => q.key = r.key) →
    ∀ fuel, 9 + (importables (h.picture d.view) (filesOf d h)).length ≤ fuel →
      (semanticDiagnostics d.view fuel h file).1.ended = true
  /-- It does not end if they lead back to the very name. -/
  endless : Circles (h.picture d.view) file (· = ·) →
    ∀ fuel, (semanticDiagnostics d.view fuel h file).1.ended = false

theorem ended_eq_false_of_circles {d : Disk} {h : ServiceHost} {file : Path}
    (hcircles : Circles (h.picture d.view) file (· = ·)) (fuel : Nat) :
    (semanticDiagnostics d.view fuel h file).1.ended = false := by
  obtain ⟨r, _, ⟨asked, depth, hasked, hsteps⟩, hcircle, rfl⟩ := hcircles
  rw [Bool.eq_false_iff, ne_eq, ended_semanticDiagnostics]
  intro hall
  exact hall asked hasked (search_unfinished_of_steps hsteps
    (fun fuel => search_unfinished_of_circle hcircle fuel depth) fuel)

theorem checkEnds (d : Disk) (h : ServiceHost) (file : Path) : CheckEnds d h file where
  steady _ _ hle hends := semanticDiagnostics_steady d.view hle hends
  ends hcircles fuel hfuel := by
    refine (ended_semanticDiagnostics d fuel h file).mpr fun r hasked => ?_
    refine search_ends (lists_filesOf d h) (fun t ht q hq hkey => ?_) (by omega)
    exact hcircles ⟨t.1, q, ⟨r, t.2, hasked, ht⟩, hq, hkey⟩
  endless hcircles fuel := ended_eq_false_of_circles hcircles fuel

/-- Imports do not lead back if the names can be ranked so that each import leads to one of a
higher rank. -/
theorem not_circles_of_rank {pic : Picture} {file : Path} (P : Reference → Prop)
    (rank : Path × Text → Nat) (hasked : ∀ r, Asked pic file r → P r)
    (hwithin : ∀ r name, P r → onward pic r = .within name → P { r with name })
    (houtward : ∀ r target, P r → onward pic r = .outward target →
      P target ∧ rank r.key < rank target.key) :
    ¬ Circles pic file fun q r => q.key = r.key := by
  rintro ⟨r, target, ⟨asked, depth, hfirst, hsteps⟩, hcircle, hkey⟩
  have hreached : ∀ s, ReflTransGen (Step pic) (asked, 1) s → P s.1 := by
    intro s hs
    induction hs with
    | refl => exact hasked _ hfirst
    | tail _ hstep ih =>
      cases hstep with
      | within hon _ => exact hwithin _ _ ih hon
      | outward hon => exact (houtward _ _ ih hon).1
  have hrise : ∀ q, TransGen (Imports pic) r q → P q ∧ rank r.key < rank q.key := by
    intro q hq
    induction hq with
    | single h => exact houtward _ _ (hreached _ hsteps) h
    | tail _ h ih =>
      obtain ⟨hp, hrank⟩ := houtward _ _ ih.1 h
      exact ⟨hp, Nat.lt_trans ih.2 hrank⟩
  have hless := (hrise target hcircle).2
  rw [hkey] at hless
  exact Nat.lt_irrefl _ hless

/-! ## Two projects -/

namespace Projects

def host : ServiceHost where
  rootFiles := []
  options := {}
  cwd := Path.ofString "/p"

def a : Path := Path.ofString "/p/a.ts"

def b : Path := Path.ofString "/p/b.ts"

/-- A file that imports a name from itself. -/
def looped : Disk where
  store := ({} : Store).add a "import \x7bx\x7d from './a'\nlet y:string=x"

theorem circles_looped : Circles (host.picture looped.view) a (· = ·) := by
  have himport : Imports (host.picture looped.view) ⟨a, "x"⟩ ⟨a, "x"⟩ := by
    unfold Imports
    decide +kernel
  have hasked : Asked (host.picture looped.view) a ⟨a, "x"⟩ :=
    ⟨_, rfl, "let y:string=x", by decide +kernel, by decide +kernel, rfl⟩
  exact ⟨_, _, ⟨_, 1, hasked, .refl⟩, .single himport, rfl⟩

def aText : Text :=
  "import \x7bx\x7d from './b'\nlet y:string=x\nlet z=2"

/-- Two files that import from each other, but no name that leads back to itself. -/
def crossed : Disk where
  store := (({} : Store).add a aText).add b
    "import \x7bz\x7d from './a'\nlet x=z"

/-- The names that the check of the first file comes to, in their order. -/
def names : List Reference := [⟨a, "x"⟩, ⟨b, "x"⟩, ⟨b, "z"⟩, ⟨a, "z"⟩]

theorem onward_crossed : names.map (onward (host.picture crossed.view)) =
    [.outward ⟨b, "x"⟩, .within "z", .outward ⟨a, "z"⟩, .ends (some "number")] := by
  decide +kernel

theorem sought_crossed : (Text.lines aText).filterMap sought? = [("x" : Text)] := by
  decide +kernel

theorem not_circles_crossed :
    ¬ Circles (host.picture crossed.view) a fun q r => q.key = r.key := by
  have honward := onward_crossed
  simp only [names, List.map_cons, List.map_nil, List.cons.injEq, and_true] at honward
  obtain ⟨hfirst, hsecond, hthird, hlast⟩ := honward
  refine not_circles_of_rank (· ∈ names) (fun k => (names.map Reference.key).idxOf k) ?_ ?_ ?_
  · rintro ⟨_, name⟩ ⟨text, ht, line, hline, hname, rfl⟩
    cases ht
    have hsought : name ∈ (Text.lines aText).filterMap sought? :=
      List.mem_filterMap.mpr ⟨line, hline, hname⟩
    rw [sought_crossed, List.mem_singleton] at hsought
    rw [hsought]
    exact List.mem_cons_self
  · intro r name hr hon
    simp only [names, List.mem_cons, List.not_mem_nil, or_false] at hr
    rcases hr with rfl | rfl | rfl | rfl
    · cases hfirst.symm.trans hon
    · cases hsecond.symm.trans hon
      decide
    · cases hthird.symm.trans hon
    · cases hlast.symm.trans hon
  · intro r target hr hon
    simp only [names, List.mem_cons, List.not_mem_nil, or_false] at hr
    rcases hr with rfl | rfl | rfl | rfl
    · cases hfirst.symm.trans hon
      decide
    · cases hsecond.symm.trans hon
    · cases hthird.symm.trans hon
      decide
    · cases hlast.symm.trans hon

end Projects

/-- Files that import from each other are checked to the end. -/
theorem checkEnds_crossed :
    ¬ Circles (Projects.host.picture Projects.crossed.view) Projects.a
        (fun q r => q.key = r.key) ∧
      ∀ fuel, 9 + (importables (Projects.host.picture Projects.crossed.view)
          (filesOf Projects.crossed Projects.host)).length ≤ fuel →
        (semanticDiagnostics Projects.crossed.view fuel Projects.host Projects.a).1.ended = true :=
  ⟨Projects.not_circles_crossed,
    (checkEnds Projects.crossed Projects.host Projects.a).ends Projects.not_circles_crossed⟩

/-- A file that imports a name from itself is never checked to the end. -/
theorem not_always_ended : ¬ ∀ (d : Disk) (h : ServiceHost) (file : Path),
    ∃ fuel, (semanticDiagnostics d.view fuel h file).1.ended = true := by
  intro hall
  obtain ⟨fuel, hends⟩ := hall Projects.looped Projects.host Projects.a
  rw [ended_eq_false_of_circles Projects.circles_looped fuel] at hends
  cases hends

end Miniature
end TestTransform

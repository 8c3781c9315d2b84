/-
What a check finds, told from a picture of the project.

A check takes files in while it goes on, but what it finds depends only on the picture of the
project that it begins with, and on the names that are declared in the program then.  So two checks
of a file fail with the same codes if the file has the same text in both, the same of its values
have another type than they are declared with, and no name that one of them misses is declared in
the other.
-/
import TestTransform.Proofs.Engine.Alike
import TestTransform.Proofs.Miniature.Search

namespace TestTransform
namespace Miniature

open ServiceHost (Grows snapshot_grows snapshot_text)

/-! ## Types in a picture -/

/-- The type of a value in a picture of a project, as far as it is found in so many steps. -/
def typeIn (pic : Picture) (fuel : Nat) (file : Path) (expression : Text) : TypeSearch :=
  match literalType? expression with
  | some type => .found type
  | none =>
    if Pattern.isMatch identifier expression then search pic fuel ⟨file, expression⟩ 1
    else .unknown

/-- The value that a line declares with another type than it has, and both types. -/
def mistyped? (pic : Picture) (fuel : Nat) (file : Path) (line : Text) :
    Option (ValueLine × Text × Text) :=
  match valueLine? line with
  | none => none
  | some v =>
    match v.declared.filter primitives.contains with
    | none => none
    | some declared =>
      match typeIn pic fuel file v.value with
      | .found actual => if actual == declared then none else some (v, declared, actual)
      | .unknown => none
      | .unfinished => none

/-- The mismatch in a line. -/
def mistypedInLine (pic : Picture) (fuel : Nat) (file : Path) (number : Nat) (line : Text) :
    List Diagnostic :=
  (mistyped? pic fuel file line).toList.map fun (v, declared, actual) =>
    mismatch file number line v declared actual

/-- What is found in the lines of a file where some names are declared. -/
def foundInLines (pic : Picture) (fuel : Nat) (declared : List Text) (file : Path)
    (lines : List (Text × Nat)) : List Diagnostic :=
  (lines.flatMap fun (line, number) => undeclaredInLine file declared number line) ++
    lines.flatMap fun (line, number) => mistypedInLine pic fuel file number line

/-- All that is found in a file. -/
def foundIn (pic : Picture) (fuel : Nat) (declared : List Text) (file : Path) : List Diagnostic :=
  match (pic file.normalize).text with
  | none => []
  | some text => syntacticDiagnostics text file ++
      foundInLines pic fuel declared file (Text.lines text).zipIdx

/-- The names that are declared where a file is checked: in the file itself, and in the other
declaration files of the program. -/
def declaredNames (view : FileView) (h : ServiceHost) (file : Path) : List Text :=
  ((h.read? view file).map declaredGlobals).getD [] ++
    (globalsOfScripts view file h.scriptNames h).1

section Checks

variable {d : Disk} {h : ServiceHost} {file : Path} {text : Text}

theorem expressionType_eq_typeIn (fuel : Nat) (ht : h.read? d.view file = some text)
    (expression : Text) : (expressionType d.view fuel h file text expression).1 =
      typeIn (h.picture d.view) fuel file expression := by
  rw [expressionType, typeIn]
  cases literalType? expression with
  | some type => rfl
  | none =>
    by_cases hname : Pattern.isMatch identifier expression = true
    · rw [if_pos hname, if_pos hname]
      exact identifierType_eq_search fuel ht expression 1
    · rw [if_neg hname, if_neg hname]

theorem mismatchInLine_eq (fuel : Nat) (ht : h.read? d.view file = some text) (number : Nat)
    (line : Text) : (mismatchInLine d.view fuel h file text number line).1.diagnostics =
      mistypedInLine (h.picture d.view) fuel file number line := by
  rw [mismatchInLine, mistypedInLine, mistyped?]
  cases valueLine? line with
  | none => rfl
  | some v =>
    cases hdeclared : v.declared.filter primitives.contains with
    | none => simp only [hdeclared, Option.toList_none, List.map_nil]
    | some declared =>
      have htype := expressionType_eq_typeIn fuel ht v.value
      simp only [hdeclared, ← htype]
      cases expressionType d.view fuel h file text v.value with
      | mk outcome h' =>
        cases outcome with
        | found actual =>
          dsimp only
          split <;> rfl
        | unknown => rfl
        | unfinished => rfl

theorem mismatches_eq (fuel : Nat) (ht : h.read? d.view file = some text) (number : Nat)
    (lines : List Text) : (mismatches d.view fuel file text number lines h).1.diagnostics =
      (lines.zipIdx number).flatMap fun (line, number) =>
        mistypedInLine (h.picture d.view) fuel file number line := by
  induction lines generalizing h number with
  | nil => rfl
  | cons line lines ih =>
    have hg := mismatchInLine_grows d.view fuel h file text number line
    have hread : (mismatchInLine d.view fuel h file text number line).2.read? d.view file =
        some text := by rw [hg.read?_eq, ht]
    have hrest := ih hread (number + 1)
    rw [hg.picture_eq] at hrest
    rw [mismatches, List.zipIdx_cons, List.flatMap_cons]
    exact congrArg₂ (· ++ ·) (mismatchInLine_eq fuel ht number line) hrest

/-! ## Names -/

theorem mem_declaredNames {view : FileView} {name : Text} :
    name ∈ declaredNames view h file ↔
      (∃ text, h.read? view file = some text ∧ name ∈ declaredGlobals text) ∨
        ∃ script ∈ h.scriptNames, ∃ text, Declares view h file script text ∧
          name ∈ declaredGlobals text := by
  rw [declaredNames, List.mem_append, mem_globalsOfScripts]
  refine or_congr_left ?_
  cases h.read? view file with
  | none => simp
  | some text => simp

/-- Another spelling of a script is read alike. -/
theorem Declares.respell {view : FileView} {script script' : Path}
    (hd : Declares view h file script text) (hsame : script'.same script = true) :
    Declares view h file script' text where
  other := by rw [← hd.other, Path.same, Path.same, Path.same_iff.mp hsame]
  declaration := by rw [Path.isDeclaration_congr hsame, hd.declaration]
  text := by
    rw [ServiceHost.read?_eq_or, Path.normalize_congr hsame, ← ServiceHost.read?_eq_or, hd.text]

/-- No name is lost if the file and all declaration files are read as before, and those of the
program stay in it. -/
theorem declaredNames_mono {view view' : FileView} {h' : ServiceHost} {name : Text}
    (hfile : h'.read? view' file = h.read? view file)
    (hread : ∀ p : Path, p.isDeclaration = true → h'.read? view' p = h.read? view p)
    (hscripts : ∀ p : Path, p.isDeclaration = true → h.isScript p = true → h'.isScript p = true)
    (hn : name ∈ declaredNames view h file) : name ∈ declaredNames view' h' file := by
  rw [mem_declaredNames] at hn ⊢
  rcases hn with ⟨t, ht, hn⟩ | ⟨script, hmem, t, hd, hn⟩
  · exact .inl ⟨t, by rw [hfile, ht], hn⟩
  · have hscript : h.isScript script = true := by
      rw [ServiceHost.isScript, Bool.or_eq_true, ← ServiceHost.exists_scriptNames_iff]
      exact ⟨script, hmem, Path.same_refl _⟩
    have hstays := hscripts script hd.declaration hscript
    rw [ServiceHost.isScript, Bool.or_eq_true, ← ServiceHost.exists_scriptNames_iff] at hstays
    obtain ⟨script', hmem', hsame⟩ := hstays
    have hd' : Declares view' h' file script t :=
      ⟨hd.other, hd.declaration, by rw [hread script hd.declaration, hd.text]⟩
    exact .inr ⟨script', hmem', t, hd'.respell hsame, hn⟩

/-- What grows keeps the files of the program. -/
theorem isScript_grows {view : FileView} {h' : ServiceHost} (hg : Grows view h h') {p : Path}
    (hp : h.isScript p = true) : h'.isScript p = true := by
  rw [ServiceHost.isScript, Bool.or_eq_true] at hp ⊢
  refine hp.imp (fun hknown => ?_) fun hroot => by rw [hg.isRoot_eq, hroot]
  obtain ⟨r, hr⟩ := FileTable.contains_eq_true.mp hknown
  exact FileTable.contains_eq_true.mpr ⟨r, hg.known p r hr⟩

/-- Of a program that grows no name is lost. -/
theorem declaredNames_grows {h' : ServiceHost} (hg : Grows d.view h h') {name : Text}
    (hn : name ∈ declaredNames d.view h file) : name ∈ declaredNames d.view h' file :=
  declaredNames_mono (hg.read?_eq file) (fun p _ => hg.read?_eq p)
    (fun _ _ => isScript_grows hg) hn

/-- A look at the file itself adds no names. -/
theorem mem_declaredNames_snapshot (d : Disk) (h : ServiceHost) (file : Path) (name : Text) :
    name ∈ declaredNames d.view (h.snapshot d.view file).2 file ↔
      name ∈ declaredNames d.view h file := by
  have hg := snapshot_grows h d.view file
  refine ⟨fun hn => ?_, declaredNames_grows hg⟩
  rw [mem_declaredNames] at hn ⊢
  rcases hn with ⟨t, ht, hn⟩ | ⟨script, hmem, t, hd, hn⟩
  · exact .inl ⟨t, by rw [← hg.read?_eq, ht], hn⟩
  · have hd' : Declares d.view h file script t :=
      ⟨hd.other, hd.declaration, by rw [← hg.read?_eq, hd.text]⟩
    have hscript := (ServiceHost.exists_scriptNames_iff _ script).mp
      ⟨script, hmem, Path.same_refl _⟩
    rw [← Bool.or_eq_true, ← ServiceHost.isScript, ServiceHost.isScript_snapshot, Bool.or_eq_true,
      Bool.and_eq_true] at hscript
    rcases hscript with hscript | ⟨hsame, -⟩
    · rw [ServiceHost.isScript, Bool.or_eq_true] at hscript
      obtain ⟨script', hmem', hsame⟩ := (ServiceHost.exists_scriptNames_iff h script).mpr hscript
      exact .inr ⟨script', hmem', t, hd'.respell hsame, hn⟩
    · -- The file itself under another spelling.
      refine .inl ⟨t, ?_, hn⟩
      have hnormal := Path.normalize_congr hsame
      rw [Path.normalize_normalize] at hnormal
      rw [ServiceHost.read?_eq_or, ← hnormal, ← ServiceHost.read?_eq_or, hd'.text]

theorem foundInLines_congr {declared declared' : List Text}
    (hmem : ∀ name, name ∈ declared ↔ name ∈ declared') (pic : Picture) (fuel : Nat) (file : Path)
    (lines : List (Text × Nat)) :
    foundInLines pic fuel declared file lines = foundInLines pic fuel declared' file lines := by
  rw [foundInLines, foundInLines]
  refine congrArg (· ++ _) (List.flatMap_congr fun line _ => ?_)
  exact undeclaredInLine_congr hmem file line.2 line.1

/-- What a check of names and types finds, told from the picture that it begins with. -/
theorem semanticDiagnostics_eq (fuel : Nat) (ht : h.read? d.view file = some text) :
    (semanticDiagnostics d.view fuel h file).1.diagnostics =
      foundInLines (h.picture d.view) fuel (declaredNames d.view h file) file
        (Text.lines text).zipIdx := by
  have htext := snapshot_text h d.view file
  have hg := snapshot_grows h d.view file
  have hsame := mem_declaredNames_snapshot d h file
  rw [semanticDiagnostics]
  cases hsnapshot : h.snapshot d.view file with
  | mk found h' =>
    rw [hsnapshot] at htext hg hsame
    obtain rfl : found = some text := htext.trans ht
    have hglobals := hg.trans (globalsOfScripts_grows d.view file h'.scriptNames h')
    have hread : (globalsOfScripts d.view file h'.scriptNames h').2.read? d.view file =
        some text := by rw [hglobals.read?_eq, ht]
    have hread' : h'.read? d.view file = some text := by rw [hg.read?_eq, ht]
    have hdeclared : declaredNames d.view h' file =
        declaredGlobals text ++ (globalsOfScripts d.view file h'.scriptNames h').1 := by
      rw [declaredNames, hread']
      rfl
    rw [← foundInLines_congr hsame]
    dsimp only
    rw [hdeclared, mismatches_eq fuel hread, hglobals.picture_eq, foundInLines]

end Checks

/-! ## Services -/

namespace Engine

theorem checkSyntax_host (view : FileView) (s : Service Engine) (file : Path) :
    (checkSyntax view s file).2.host = (s.host.snapshot view file).2 := by
  simp only [checkSyntax, Service.snapshot, sync_host]

theorem checkTypes_diagnostics (view : FileView) (s : Service Engine) (file : Path) :
    (checkTypes view s file).1 =
      (semanticDiagnostics view searchLimit s.host file).1.diagnostics := by
  simp only [checkTypes, Service.ask, sync_host, count]

/-- What both checks of a file find, told from the picture that they begin with. -/
theorem checks_eq (d : Disk) (s : Service Engine) (file : Path) :
    (checkSyntax d.view s file).1 ++ (checkTypes d.view (checkSyntax d.view s file).2 file).1 =
      foundIn (s.host.picture d.view) searchLimit (declaredNames d.view s.host file) file := by
  have hg := snapshot_grows s.host d.view file
  have htext := text_picture (d := d) s.host file
  rw [checkTypes_diagnostics, checkSyntax_host, checkSyntax_text, foundIn]
  cases ht : s.host.read? d.view file with
  | none =>
    have hagain := snapshot_text (s.host.snapshot d.view file).2 d.view file
    rw [hg.read?_eq, ht] at hagain
    rw [htext, ht, semanticDiagnostics]
    cases hsnapshot : (s.host.snapshot d.view file).2.snapshot d.view file with
    | mk found h' =>
      rw [hsnapshot] at hagain
      cases hagain
      rfl
  | some text =>
    have hread : (s.host.snapshot d.view file).2.read? d.view file = some text := by
      rw [hg.read?_eq, ht]
    rw [htext, ht, semanticDiagnostics_eq searchLimit hread, hg.picture_eq,
      foundInLines_congr (mem_declaredNames_snapshot d s.host file)]
    rfl

end Engine

/-! ## Two checks of a file -/

/-- Whether a file has the same text in two pictures, and the same of its values have another type
than they are declared with. -/
structure SameValues (fuel : Nat) (pic pic' : Picture) (file : Path) : Prop where
  text : (pic file.normalize).text = (pic' file.normalize).text
  types : ∀ text, (pic file.normalize).text = some text → ∀ line ∈ Text.lines text,
    (mistyped? pic fuel file line).isSome = (mistyped? pic' fuel file line).isSome

instance (fuel : Nat) (pic pic' : Picture) (file : Path) :
    Decidable (SameValues fuel pic pic' file) :=
  decidable_of_iff ((pic file.normalize).text = (pic' file.normalize).text ∧
      ∀ text ∈ (pic file.normalize).text, ∀ line ∈ Text.lines text,
        (mistyped? pic fuel file line).isSome = (mistyped? pic' fuel file line).isSome)
    ⟨fun h => ⟨h.1, h.2⟩, fun h => ⟨h.text, h.types⟩⟩

/-- Whether some diagnostics miss a name. -/
def Misses (ds : List Diagnostic) (name : Text) : Prop :=
  ∃ d ∈ ds, d.code = cannotFindName ∧ d.message = missingMessage name

theorem Misses.mono {ds ds' : List Diagnostic} {name : Text} (h : Misses ds name)
    (hsub : ds ⊆ ds') : Misses ds' name :=
  let ⟨d, hd, hmissing⟩ := h
  ⟨d, hsub hd, hmissing⟩

instance (ds : List Diagnostic) (name : Text) : Decidable (Misses ds name) :=
  inferInstanceAs (Decidable (∃ d ∈ ds, d.code = cannotFindName ∧ d.message = missingMessage name))

theorem missingMessage_injective {name name' : Text}
    (h : missingMessage name = missingMessage name') : name = name' := by
  unfold missingMessage at h
  exact (List.append_right_inj _).mp ((List.append_left_inj _).mp h)

/-- A name that is missed is not declared. -/
theorem not_mem_of_misses {pic : Picture} {fuel : Nat} {declared : List Text} {file : Path}
    {name : Text} (h : Misses (foundIn pic fuel declared file) name) : name ∉ declared := by
  obtain ⟨d, hd, hcode, hmessage⟩ := h
  rw [foundIn] at hd
  cases ht : (pic file.normalize).text with
  | none =>
    rw [ht] at hd
    cases hd
  | some text =>
    rw [ht] at hd
    dsimp only at hd
    rw [foundInLines, List.mem_append, List.mem_append] at hd
    rcases hd with hd | hd | hd
    · -- A mistake in the braces has another code.
      rw [syntacticDiagnostics] at hd
      split at hd
      · cases hd
      · cases List.mem_singleton.mp hd
        cases hcode
    · obtain ⟨⟨line, number⟩, -, hd⟩ := List.mem_flatMap.mp hd
      dsimp only at hd
      rw [undeclaredInLine] at hd
      split at hd
      · cases hd
      · obtain ⟨m, -, hm⟩ := List.mem_filterMap.mp hd
        split at hm
        · cases hm
        · rename_i hnot
          cases hm
          rw [List.contains_iff_mem] at hnot
          rwa [← missingMessage_injective hmessage]
    · -- A mismatch has another code.
      obtain ⟨⟨line, number⟩, -, hd⟩ := List.mem_flatMap.mp hd
      obtain ⟨found, -, rfl⟩ := List.mem_map.mp hd
      cases hcode

section TwoChecks

variable {P : Diagnostic → Bool} {file : Path} {declared declared' : List Text}
  {pic pic' : Picture} {fuel : Nat}

/-- Of the names that matter, the same are missed in a line. -/
theorem filter_undeclaredInLine {number : Nat} {line : Text}
    (h : ∀ name, Misses ((undeclaredInLine file declared number line).filter P) name →
      name ∉ declared')
    (h' : ∀ name, Misses ((undeclaredInLine file declared' number line).filter P) name →
      name ∉ declared) :
    (undeclaredInLine file declared number line).filter P =
      (undeclaredInLine file declared' number line).filter P := by
  by_cases hambient : Pattern.isMatch ambientDeclaration line = true
  · rw [undeclaredInLine, undeclaredInLine, if_pos hambient, if_pos hambient]
  -- A use that is reported and matters misses its name.
  have hmisses : ∀ declared, ∀ m ∈ Pattern.searchAll ambientGlobal line,
      P (missing file number line m) = true → m.extent.of line ∉ declared →
        Misses ((undeclaredInLine file declared number line).filter P) (m.extent.of line) := by
    intro declared m hm hmatters hnot
    refine ⟨missing file number line m, List.mem_filter.mpr ⟨?_, hmatters⟩, rfl, rfl⟩
    rw [undeclaredInLine, if_neg hambient]
    refine List.mem_filterMap.mpr ⟨m, hm, ?_⟩
    rw [if_neg fun hcontains => hnot (List.contains_iff_mem.mp hcontains)]
  rw [undeclaredInLine, undeclaredInLine, if_neg hambient, if_neg hambient,
    List.filter_filterMap, List.filter_filterMap]
  refine List.filterMap_congr fun m hm => ?_
  cases hmatters : P (missing file number line m) with
  | false =>
    have hdropped : ∀ declared : List Text, Option.filter P (if declared.contains (m.extent.of line)
        then none else some (missing file number line m)) = none := by
      intro declared
      split
      · rfl
      · rw [Option.filter_some, hmatters]
        rfl
    rw [hdropped, hdropped]
  | true =>
    have hsame : declared.contains (m.extent.of line) = declared'.contains (m.extent.of line) := by
      rw [Bool.eq_iff_iff, List.contains_iff_mem, List.contains_iff_mem]
      constructor
      · intro hmem
        by_contra hnot
        exact h' _ (hmisses declared' m hm hmatters hnot) hmem
      · intro hmem
        by_contra hnot
        exact h _ (hmisses declared m hm hmatters hnot) hmem
    rw [hsame]

/-- A mismatch matters for its code and its file. -/
theorem codes_mistypedInLine {number : Nat} {line : Text}
    (hP : ∀ d d' : Diagnostic, d.category = d'.category → d.code = d'.code → d.file = d'.file →
      P d = P d')
    (h : (mistyped? pic fuel file line).isSome = (mistyped? pic' fuel file line).isSome) :
    ((mistypedInLine pic fuel file number line).filter P).map (·.code) =
      ((mistypedInLine pic' fuel file number line).filter P).map (·.code) := by
  rw [mistypedInLine, mistypedInLine]
  cases hl : mistyped? pic fuel file line with
  | none =>
    rw [hl, Option.isSome_none] at h
    have hr : mistyped? pic' fuel file line = none :=
      Option.isNone_iff_eq_none.mp (Option.isSome_eq_false_iff.mp h.symm)
    rw [hr]
  | some found =>
    rw [hl] at h
    obtain ⟨found', hr⟩ := Option.isSome_iff_exists.mp h.symm
    obtain ⟨v, declared, actual⟩ := found
    obtain ⟨v', declared', actual'⟩ := found'
    have hsame := hP (mismatch file number line v declared actual)
      (mismatch file number line v' declared' actual') rfl rfl rfl
    rw [hr]
    simp only [Option.toList_some, List.map_cons, List.map_nil, List.filter_singleton, hsame]
    cases P (mismatch file number line v' declared' actual') <;> rfl

/-- Of the diagnostics that matter, two checks find the same codes. -/
theorem codes_foundIn
    (hP : ∀ d d' : Diagnostic, d.category = d'.category → d.code = d'.code → d.file = d'.file →
      P d = P d')
    (hvalues : SameValues fuel pic pic' file)
    (hmissed : ∀ name, Misses ((foundIn pic fuel declared file).filter P) name → name ∉ declared')
    (hmissed' : ∀ name, Misses ((foundIn pic' fuel declared' file).filter P) name →
      name ∉ declared) :
    ((foundIn pic fuel declared file).filter P).map (·.code) =
      ((foundIn pic' fuel declared' file).filter P).map (·.code) := by
  have htext := hvalues.text
  rw [foundIn] at hmissed
  rw [foundIn] at hmissed'
  rw [foundIn, foundIn]
  rw [← htext] at hmissed' ⊢
  cases ht : (pic file.normalize).text with
  | none => rfl
  | some text =>
    rw [ht] at hmissed hmissed'
    dsimp only at hmissed hmissed' ⊢
    simp only [foundInLines, List.filter_append, List.map_append, List.filter_flatMap,
      List.map_flatMap] at hmissed hmissed' ⊢
    refine congrArg₂ (· ++ ·) rfl (congrArg₂ (· ++ ·) ?_ ?_)
    · refine List.flatMap_congr fun line hline => congrArg _ (filter_undeclaredInLine ?_ ?_)
      · refine fun name hname => hmissed name (hname.mono fun d hd => ?_)
        exact List.mem_append_right _ (List.mem_append_left _
          (List.mem_flatMap.mpr ⟨line, hline, hd⟩))
      · refine fun name hname => hmissed' name (hname.mono fun d hd => ?_)
        exact List.mem_append_right _ (List.mem_append_left _
          (List.mem_flatMap.mpr ⟨line, hline, hd⟩))
    · refine List.flatMap_congr fun line hline => codes_mistypedInLine hP ?_
      exact hvalues.types text ht line.1 (List.fst_mem_of_mem_zipIdx hline)

/-! ## Pictures that agree -/

/-- Where a search goes depends on the file of the name and on dotted files only. -/
theorem onward_congr (h : ∀ p : Path, p.normalize = p → p.IsDotted → pic p = pic' p) {r : Reference}
    (hr : pic r.file.normalize = pic' r.file.normalize) : onward pic r = onward pic' r := by
  have hdotted : ∀ p : Path, p.IsDotted → pic p.normalize = pic' p.normalize := fun p hp =>
    h _ (Path.normalize_normalize p) hp.normalize
  have hresolve : ∀ specifier, resolveModule (fun p => (pic p.normalize).isFile) r.file specifier =
      resolveModule (fun p => (pic' p.normalize).isFile) r.file specifier :=
    fun specifier => resolveModule_congr (fun p hp => by rw [hdotted p hp]) r.file specifier
  rw [onward, onward, hr]
  simp only [hresolve]
  split
  · rfl
  · split
    · rfl
    · split
      · rfl
      · split
        · rfl
        · rename_i module hmodule
          rw [hdotted module (isDotted_of_resolveModule hmodule)]

theorem isDotted_of_onward {r target : Reference} (h : onward pic r = .outward target) :
    target.file.IsDotted := by
  rw [onward] at h
  split at h
  · cases h
  · split at h
    · split at h
      · cases h
      · split at h <;> cases h
    · split at h
      · cases h
      · split at h
        · cases h
        · rename_i module hmodule
          split at h
          · cases h
            exact isDotted_of_resolveModule hmodule
          · cases h

theorem search_congr (h : ∀ p : Path, p.normalize = p → p.IsDotted → pic p = pic' p)
    (fuel : Nat) {r : Reference} (hr : pic r.file.normalize = pic' r.file.normalize) (depth : Nat) :
    search pic fuel r depth = search pic' fuel r depth := by
  induction fuel generalizing r depth with
  | zero => rfl
  | succ fuel ih =>
    rw [search, search, ← onward_congr h hr]
    cases hon : onward pic r with
    | ends type => rfl
    | within name => simp only [ih (r := { r with name }) hr]
    | outward target =>
      exact ih (h _ (Path.normalize_normalize _) (isDotted_of_onward hon).normalize) _

/-- Pictures in which a file and all dotted files look alike have the same values of the file. -/
theorem SameValues.of_pictures (h : ∀ p : Path, p.normalize = p → p.IsDotted → pic p = pic' p)
    (hfile : pic file.normalize = pic' file.normalize) (fuel : Nat) :
    SameValues fuel pic pic' file where
  text := by rw [hfile]
  types := by
    intro text _ line _
    have htype : ∀ expression,
        typeIn pic fuel file expression = typeIn pic' fuel file expression := by
      intro expression
      rw [typeIn, typeIn, search_congr h fuel hfile]
    rw [mistyped?, mistyped?]
    simp only [htype]

end TwoChecks

end Miniature

namespace Engine

/-- What is found in a file, told from the picture that the check of it begins with. -/
theorem check_eq_foundIn (d : Disk) {s : Service Engine} (hm : s.engine.IsMiniature)
    (file : Path) : (check d.view s file).1 = Miniature.foundIn (s.host.picture d.view)
      Miniature.Engine.searchLimit (Miniature.declaredNames d.view s.host file) file := by
  obtain ⟨e, host, seen⟩ := s
  cases e with
  | miniature m => exact Miniature.Engine.checks_eq d ⟨m, host, seen⟩ file
  | scripted e => exact hm.elim

/-- An engine that answers from tables finds the same in whatever project it is asked. -/
theorem check_scripted (view view' : FileView) {s s' : Service Engine} (he : Alike s.engine s'.engine)
    (hm : ¬ s.engine.IsMiniature) (file : Path) :
    (check view s file).1 = (check view' s' file).1 := by
  obtain ⟨e, host, seen⟩ := s
  obtain ⟨e', host', seen'⟩ := s'
  cases e with
  | miniature m => exact absurd trivial hm
  | scripted e =>
    cases e' with
    | miniature m => exact he.elim
    | scripted e' =>
      have hsyntactic : e.syntactic = e'.syntactic := (congrArg Scripted.Engine.syntactic he :)
      have hsemantic : e.semantic = e'.semantic := (congrArg Scripted.Engine.semantic he :)
      show Scripted.Engine.look e.syntactic file ++ Scripted.Engine.look e.semantic file =
        Scripted.Engine.look e'.syntactic file ++ Scripted.Engine.look e'.semantic file
      rw [hsyntactic, hsemantic]

theorem Alike.isMiniature {e e' : Engine} (h : Alike e e') (hm : e.IsMiniature) :
    e'.IsMiniature := by
  cases e with
  | scripted e => exact hm.elim
  | miniature m =>
    cases e' with
    | scripted e' => exact h.elim
    | miniature m' => trivial

end Engine
end TestTransform

/-
Where the diagnostics of a check point.

A diagnostic about a value or about a global stands at a name in a line of its file: the name
that the line declares, or the global that its message names.  But what is in front of the name is
counted in bytes, and so is the name, while the line that is shown under a diagnostic is marked
by characters.  So the mark is below the name, and as long, exactly if there are no characters
beyond ASCII up to the end of the name.
-/
import TestTransform.Diagnostic.Format
import TestTransform.Files.Store
import TestTransform.Miniature.Check
import TestTransform.Proofs.Pattern.Language
import TestTransform.Proofs.Pattern.Walks
import TestTransform.Proofs.Text.Utf8

namespace TestTransform

open Pattern
open Diagnostic (narrow)
open Text (IsAscii byteLength byteLength_eq_length_iff)

namespace Pattern

/-- A free pattern spells the stretch along which it leads. -/
theorem Leads.spells_stretch {p : Pattern} {t : Text} {i j : Nat} (h : p.Leads (edges t) i j)
    (hfree : p.IsFree) (hi : i ≤ t.length) : p.Spells ((t.drop i).take (j - i)) := by
  obtain ⟨u, hu, rfl, hspells⟩ := (leads_iff_spells hfree hi).mp h
  rwa [Nat.add_sub_cancel_left, ← List.prefix_iff_eq_take.mp hu]

theorem take_append_stretch_append (t : Text) {i j : Nat} (h : i ≤ j) :
    t.take i ++ (t.drop i).take (j - i) ++ t.drop j = t := by
  rw [List.append_assoc, show j = i + (j - i) by omega, Nat.add_sub_cancel_left, ← List.drop_drop,
    List.take_append_drop, List.take_append_drop]

/-- At the edge of a word there is a character of one on one side only. -/
theorem leads_wordEdge {t : Text} {i j : Nat} (h : i ≤ t.length) :
    wordEdge.Leads (edges t) i j ↔
      isWordIn false (t.take i).getLast? ≠ isWordIn false (t.drop i).head? ∧ i = j := by
  have hlast : (t.take i).getLast? = if i = 0 then none else t[i - 1]? := by
    rw [List.getLast?_take]
    split
    · rfl
    · rw [List.getElem?_eq_getElem (by omega)]
      rfl
  simp only [wordEdge, Leads, getElem?_edges h, Option.some.injEq, exists_eq_left', holds,
    bne_iff_ne, hlast, List.head?_drop]

end Pattern

namespace Miniature

/-! ## Declarations of values -/

/-- What stands in front of the name that a line declares. -/
def frontOfName : List Pattern := [blanks, exportWord, variableWord, someBlanks]

/-- What stands behind the name: its type, if there is one, and its value. -/
def behindName : List Pattern :=
  [blanks, optional (all [char ':', blanks, group 2 type, blanks]), char '=', blanks,
    group 3 (plusLazy dot), blanks, optional (char ';'), blanks]

/-- Whether a line in three parts declares a value under the name in the middle. -/
structure DeclaresValue (before name after : Text) : Prop where
  front : (all frontOfName).Spells before
  name : ident.Spells name
  behind : (all behindName).Spells after

theorem valueDeclaration_eq : valueDeclaration =
    all (start :: frontOfName ++ group 1 ident :: (behindName ++ [stop])) := rfl

/-- The name of a value that a line declares, and where it stands. -/
theorem declares_of_valueLine? {line : Text} {v : ValueLine} (h : valueLine? line = some v) :
    ∃ before after, line = before ++ v.name ++ after ∧ before = line.take v.nameAt.start ∧
      DeclaresValue before v.name after := by
  obtain ⟨m, hm, rfl⟩ := Option.map_eq_some_iff.mp h
  have hmatch := isMatchIn_of_search hm
  rw [valueDeclaration_eq] at hmatch
  obtain ⟨e, hgroup, hfront, hname, hbehind⟩ := hmatch.group (by decide)
  obtain ⟨k, hbehind, hstop⟩ := (leads_all_append _ _ _ _).mp hbehind
  have hk : k ≤ line.length := Nat.le_trans hstop.le hmatch.2
  have he : e.stop ≤ line.length := Nat.le_trans hbehind.le hk
  obtain ⟨hend, -⟩ := (leads_textEnd hk).mp hstop
  obtain ⟨i, hstart, hfront⟩ := (leads_all_cons _ _ _ _).mp hfront
  have hi : m.start ≤ line.length :=
    Nat.le_trans hstart.le (Nat.le_trans hfront.le (Nat.le_trans hname.le he))
  obtain ⟨-, rfl⟩ := (leads_textStart hi).mp hstart
  have hof : m.textOf line 1 = (line.drop e.start).take (e.stop - e.start) := by
    rw [Match.textOf, hgroup]
    rfl
  refine ⟨line.take e.start, line.drop e.stop, ?_, ?_, ?_, ?_, ?_⟩
  · dsimp only
    rw [hof, take_append_stretch_append line hname.le]
  · dsimp only
    rw [hgroup]
    rfl
  · have hspells := hfront.spells_stretch (by decide) (Nat.zero_le _)
    rwa [List.drop_zero, Nat.sub_zero] at hspells
  · dsimp only
    rw [hof]
    exact hname.spells_stretch (by decide) (Nat.le_trans hname.le he)
  · have hspells := hbehind.spells_stretch (by decide) he
    rwa [hend, List.take_of_length_le (by rw [List.length_drop])] at hspells

theorem DeclaresValue.name_ne_nil {before name after : Text}
    (h : DeclaresValue before name after) : name ≠ [] := by
  obtain ⟨first, rest, rfl, ⟨c, rfl, -⟩, -⟩ := h.name
  simp

/-! ## Uses of globals -/

/-- Whether a line in three parts has a global as a word of its own in the middle. -/
structure MentionsGlobal (before name after : Text) : Prop where
  name : globalName.Spells name
  front : isWordIn false before.getLast? = false
  behind : isWordIn false after.head? = false

/-- A global begins and ends with an underscore, and all of it is ASCII. -/
theorem shape_of_globalName {name : Text} (h : globalName.Spells name) :
    name.head? = some '_' ∧ name.getLast? = some '_' ∧ name.IsAscii := by
  simp only [globalName, spells_all_cons, spells_literal, spells_star_one] at h
  obtain ⟨_, _, rfl, rfl, _, _, rfl, ⟨c, rfl, hc⟩, middle, _, rfl, hmiddle, _, _, rfl, rfl, hnil⟩ := h
  obtain rfl := hnil
  have hends : ∀ d ∈ (("__" : String) : Text), d.toNat < 128 := by
    intro d hd
    obtain rfl | rfl := List.mem_pair.mp hd <;> decide
  have hfirst : c.toNat < 128 := by
    simp only [CharSet.between, CharSet.mem, Bool.and_eq_true, decide_eq_true_eq] at hc
    exact Nat.lt_of_le_of_lt hc.2 (by decide)
  have hrest : Text.IsAscii middle := by
    intro d hd
    have hmem := hmiddle d hd
    simp only [CharSet.mem, CharSet.between, CharSet.single, Bool.or_eq_true, Bool.and_eq_true,
      decide_eq_true_eq] at hmem
    rcases hmem with (⟨-, hle⟩ | ⟨-, hle⟩) | ⟨-, hle⟩ <;>
      exact Nat.lt_of_le_of_lt hle (by decide)
  refine ⟨rfl, ?_, fun d hd => ?_⟩
  · rw [List.append_nil, ← List.append_assoc, ← List.append_assoc, List.getLast?_append]
    rfl
  · simp only [List.mem_append, List.mem_singleton, List.append_nil] at hd
    rcases hd with hd | rfl | hd | hd
    · exact hends d hd
    · exact hfirst
    · exact hrest d hd
    · exact hends d hd

/-- A match of the pattern of globals is one of a global that stands alone. -/
theorem mentionsGlobal_of_match {line : Text} {m : Match}
    (h : m ∈ searchAll ambientGlobal line) :
    ∃ before after, line = before ++ m.extent.of line ++ after ∧ before = line.take m.start ∧
      MentionsGlobal before (m.extent.of line) after := by
  have hmatch := isMatchIn_of_mem_searchAll h
  obtain ⟨i, hfront, hrest⟩ := (leads_all_cons _ _ _ _).mp hmatch.1.leads
  obtain ⟨j, hname, hrest⟩ := (leads_all_cons _ _ _ _).mp hrest
  obtain ⟨k, hbehind, hstop⟩ := (leads_all_cons _ _ _ _).mp hrest
  have hj : j ≤ line.length := Nat.le_trans hbehind.le (Nat.le_trans hstop.le hmatch.2)
  have hi : m.start ≤ line.length := Nat.le_trans hfront.le (Nat.le_trans hname.le hj)
  obtain ⟨hbegins, rfl⟩ := (leads_wordEdge hi).mp hfront
  obtain ⟨hends, rfl⟩ := (leads_wordEdge hj).mp hbehind
  obtain rfl : j = m.stop := hstop
  have hspells : globalName.Spells (m.extent.of line) :=
    hname.spells_stretch (by decide) hi
  obtain ⟨hfirst, hlast, -⟩ := shape_of_globalName hspells
  rw [Match.extent, Extent.of] at hfirst hlast
  have hhead : (line.drop m.start).head? = some '_' := by
    rw [← List.take_append_drop (m.stop - m.start) (line.drop m.start), List.head?_append, hfirst]
    rfl
  have htake : (line.take m.stop).getLast? = some '_' := by
    rw [← Nat.add_sub_cancel' hname.le, List.take_add, List.getLast?_append, hlast]
    rfl
  have hword : isWordIn false (some '_') = true := rfl
  rw [hhead, hword] at hbegins
  rw [htake, hword] at hends
  exact ⟨line.take m.start, line.drop m.stop, (take_append_stretch_append line hname.le).symm, rfl,
    hspells, Bool.eq_false_iff.mpr hbegins, Bool.eq_false_iff.mpr hends.symm⟩

theorem MentionsGlobal.name_ne_nil {before name after : Text}
    (h : MentionsGlobal before name after) : name ≠ [] := by
  rintro rfl
  cases (shape_of_globalName h.name).1

/-! ## Diagnostics and what they are about -/

/-- Whether a diagnostic is about a name in a line in three parts. -/
inductive IsAbout (d : Diagnostic) (before name after : Text) : Prop where
  | global : d.code = cannotFindName → d.message = "Cannot find name '" ++ name ++ "'." →
      MentionsGlobal before name after → IsAbout d before name after
  | value : d.code = typeNotAssignable → DeclaresValue before name after →
      IsAbout d before name after

/-- Whether a diagnostic points at a name in a line of a text, in front of which and in which
bytes are counted, as far as 32 bits go. -/
structure PointsAt (d : Diagnostic) (file : Path) (number : Nat) (before name after : Text) :
    Prop where
  about : IsAbout d before name after
  file_eq : d.file = some file
  start_eq : d.start = some ⟨narrow number, narrow (byteLength before)⟩
  length_eq : d.length = some (narrow (byteLength name))

section Diagnostics

variable {file : Path} {number : Nat} {line : Text} {d : Diagnostic}

theorem pointsAt_of_mem_undeclaredInLine {declared : List Text}
    (h : d ∈ undeclaredInLine file declared number line) :
    ∃ before name after, line = before ++ name ++ after ∧
      PointsAt d file number before name after := by
  rw [undeclaredInLine] at h
  split at h
  · cases h
  · obtain ⟨m, hm, hd⟩ := List.mem_filterMap.mp h
    obtain ⟨before, after, hline, hbefore, hmentions⟩ := mentionsGlobal_of_match hm
    split at hd
    · cases hd
    · cases hd
      exact ⟨before, m.extent.of line, after, hline, .global rfl rfl hmentions, rfl,
        hbefore ▸ rfl, rfl⟩

section Check

variable {view : FileView} {fuel : Nat} {h : ServiceHost} {text : Text}

theorem pointsAt_of_mem_mismatchInLine
    (hd : d ∈ (mismatchInLine view fuel h file text number line).1.diagnostics) :
    ∃ before name after, line = before ++ name ++ after ∧
      PointsAt d file number before name after := by
  rw [mismatchInLine] at hd
  cases hvalue : valueLine? line with
  | none =>
    rw [hvalue] at hd
    cases hd
  | some v =>
    obtain ⟨before, after, hline, hbefore, hdeclares⟩ := declares_of_valueLine? hvalue
    refine ⟨before, v.name, after, hline, ?_⟩
    simp only [hvalue] at hd
    split at hd
    · cases hd
    · split at hd
      · split at hd
        · cases hd
        · rw [List.mem_singleton.mp hd]
          exact ⟨.value rfl hdeclares, rfl, hbefore ▸ rfl, rfl⟩
      · cases hd
      · cases hd

theorem pointsAt_of_mem_mismatches {lines : List Text}
    (hd : d ∈ (mismatches view fuel file text number lines h).1.diagnostics) :
    ∃ before name after i line, lines[i]? = some line ∧ line = before ++ name ++ after ∧
      PointsAt d file (number + i) before name after := by
  induction lines generalizing number h with
  | nil => cases hd
  | cons line lines ih =>
    rw [mismatches] at hd
    rcases List.mem_append.mp hd with hd | hd
    · obtain ⟨before, name, after, hline, hpoints⟩ := pointsAt_of_mem_mismatchInLine hd
      exact ⟨before, name, after, 0, line, rfl, hline, hpoints⟩
    · obtain ⟨before, name, after, i, l, hl, hline, hpoints⟩ := ih hd
      refine ⟨before, name, after, i + 1, l, hl, hline, ?_⟩
      rwa [← Nat.add_assoc, Nat.add_right_comm]

/-- Whatever a check reports points at a name in a line of the file. -/
theorem pointsAt_of_mem_semanticDiagnostics
    (hd : d ∈ (semanticDiagnostics view fuel h file).1.diagnostics) :
    ∃ text number line before name after, (h.snapshot view file).1 = some text ∧
      (Text.lines text)[number]? = some line ∧ line = before ++ name ++ after ∧
      PointsAt d file number before name after := by
  rw [semanticDiagnostics] at hd
  cases hsnapshot : h.snapshot view file with
  | mk found h' =>
    rw [hsnapshot] at hd
    cases found with
    | none => cases hd
    | some text =>
      refine ⟨text, ?_⟩
      rcases List.mem_append.mp hd with hd | hd
      · obtain ⟨⟨line, number⟩, hmem, hd⟩ := List.mem_flatMap.mp hd
        obtain ⟨before, name, after, hline, hpoints⟩ := pointsAt_of_mem_undeclaredInLine hd
        exact ⟨number, line, before, name, after, rfl, List.mk_mem_zipIdx_iff_getElem?.mp hmem,
          hline, hpoints⟩
      · obtain ⟨before, name, after, i, line, hl, hline, hpoints⟩ := pointsAt_of_mem_mismatches hd
        rw [Nat.zero_add] at hpoints
        exact ⟨i, line, before, name, after, rfl, hl, hline, hpoints⟩

end Check

/-! ## Spans and marks -/

/-- A line of a source under its number. -/
def sourceLine (number : Nat) (line : Text) : Text :=
  Diagnostic.inverse ++ Diagnostic.Position.shown number ++ Diagnostic.reset ++ " " ++ line

/-- What is shown below a line of a source: as much space as its number takes, and a stretch
that is marked. -/
def markLine (number : Nat) (color : Text) (column width : Nat) : Text :=
  Diagnostic.inverse ++ List.replicate (Diagnostic.Position.shown number).length ' ' ++
    Diagnostic.reset ++ " " ++ List.replicate column ' ' ++ color ++ List.replicate width '~' ++
    Diagnostic.reset

/-- The characters that a diagnostic marks in the text of its file. -/
def markedIn? (d : Diagnostic) (text : Text) : Option Text := do
  let start ← d.start
  let length ← d.length
  let line ← (Text.lines text)[start.line]?
  some ((line.drop start.character).take length)

/-- Whether 32 bits hold the number of a line and those of its bytes. -/
structure Counted (number : Nat) (line : Text) : Prop where
  number : number < 4294967296
  bytes : byteLength line < 4294967296

theorem narrow_of_lt {n : Nat} (h : n < 4294967296) : narrow n = n := Nat.mod_eq_of_lt h

section PointsAt

variable {before name after : Text}

theorem Counted.before_lt (h : Counted number (before ++ name ++ after)) :
    byteLength before < 4294967296 := by
  have hbytes := h.bytes
  rw [List.append_assoc, Text.byteLength_append] at hbytes
  omega

theorem Counted.name_lt (h : Counted number (before ++ name ++ after)) :
    byteLength name < 4294967296 := by
  have hbytes := h.bytes
  rw [Text.byteLength_append, Text.byteLength_append] at hbytes
  omega

theorem PointsAt.name_ne_nil (h : PointsAt d file number before name after) : name ≠ [] := by
  cases h.about with
  | global _ _ hmentions => exact hmentions.name_ne_nil
  | value _ hdeclares => exact hdeclares.name_ne_nil

/-- Numbers that 32 bits hold are reported as they are. -/
theorem PointsAt.start_eq_of_counted (h : PointsAt d file number before name after)
    (hc : Counted number (before ++ name ++ after)) :
    d.start = some ⟨number, byteLength before⟩ := by
  rw [h.start_eq, narrow_of_lt hc.number, narrow_of_lt hc.before_lt]

theorem PointsAt.length_eq_of_counted (h : PointsAt d file number before name after)
    (hc : Counted number (before ++ name ++ after)) : d.length = some (byteLength name) := by
  rw [h.length_eq, narrow_of_lt hc.name_lt]

theorem PointsAt.contextLines_eq (h : PointsAt d file number before name after)
    (hc : Counted number (before ++ name ++ after)) (line : Text) :
    d.contextLines ⟨number, byteLength before⟩ line = "\n" ++ sourceLine number line ++ "\n" ++
      markLine number d.category.color (byteLength before) (byteLength name) ++ "\n\n" := by
  have hpos : 1 ≤ byteLength name :=
    Nat.le_trans (List.length_pos_iff.mpr h.name_ne_nil) (Text.length_le_byteLength name)
  have hwidth : max (d.length.getD 1) 1 = byteLength name := by
    rw [h.length_eq_of_counted hc, Option.getD_some, Nat.max_eq_left hpos]
  unfold Diagnostic.contextLines
  dsimp only
  rw [hwidth, sourceLine, markLine]
  simp only [List.append_assoc]

/-- The line with its mark, as it is shown to whoever has the text of the file. -/
theorem PointsAt.pretty_eq (h : PointsAt d file number before name after)
    (hc : Counted number (before ++ name ++ after)) {text : Text}
    (hline : (Text.lines text)[number]? = some line) (cwd : Path)
    {sourceOf : Path → Option Text} (hsource : sourceOf file = some text) :
    ∃ heading, Diagnostic.pretty [d] cwd sourceOf = heading ++ ("\n" ++ sourceLine number line ++
      "\n" ++ markLine number d.category.color (byteLength before) (byteLength name) ++
      "\n\n") := by
  have hcontext : d.context? sourceOf = some (⟨number, byteLength before⟩, line) := by
    simp [Diagnostic.context?, h.file_eq, h.start_eq_of_counted hc, hsource, hline]
  rw [Diagnostic.pretty, List.flatMap_cons, List.flatMap_nil, List.append_nil, hcontext]
  dsimp only
  rw [h.contextLines_eq hc line]
  exact ⟨_, rfl⟩

/-- Where bytes are characters, the name is what is marked. -/
theorem PointsAt.markedIn?_eq (h : PointsAt d file number before name after)
    (hc : Counted number (before ++ name ++ after)) {text : Text}
    (hline : (Text.lines text)[number]? = some (before ++ name ++ after))
    (hbefore : before.IsAscii) (hname : name.IsAscii) : markedIn? d text = some name := by
  have hstretch : ((before ++ name ++ after).drop (byteLength before)).take (byteLength name) =
      name := by
    rw [byteLength_eq_length_iff.mpr hbefore, byteLength_eq_length_iff.mpr hname,
      List.append_assoc, List.drop_left, List.take_left]
  simp only [markedIn?, h.start_eq_of_counted hc, h.length_eq_of_counted hc, hline,
    Option.bind_eq_bind, Option.bind_some, hstretch]

theorem IsAbout.isAscii_of_global (h : IsAbout d before name after)
    (hcode : d.code = cannotFindName) : name.IsAscii := by
  cases h with
  | global _ _ hmentions => exact (shape_of_globalName hmentions.name).2.2
  | value hvalue _ => exact absurd (hcode.symm.trans hvalue) (by decide)

end PointsAt

/-- Each diagnostic of a check is about a name in a line of the file: about the variable that the
line declares with a value, or about the global that its message names.  Its position says how
many bytes stand in front of the name, and its length how many the name has, as 32 bits hold these
numbers.  As characters the numbers of bytes are right exactly if there are only characters of
ASCII in front of the name or in it, and in a global there are no others.  Where they are right,
what is marked is the name.  Where the line is shown, the mark begins behind as much space and is
as long as the numbers say. -/
theorem span_of_semanticDiagnostics {view : FileView} {fuel : Nat} {h : ServiceHost}
    (hd : d ∈ (semanticDiagnostics view fuel h file).1.diagnostics) :
    ∃ text number line before name after, (h.snapshot view file).1 = some text ∧
      (Text.lines text)[number]? = some line ∧ line = before ++ name ++ after ∧
      IsAbout d before name after ∧ d.file = some file ∧
      d.start = some ⟨narrow number, narrow (byteLength before)⟩ ∧
      d.length = some (narrow (byteLength name)) ∧
      (byteLength before = before.length ↔ before.IsAscii) ∧
      (byteLength name = name.length ↔ name.IsAscii) ∧
      (d.code = cannotFindName → name.IsAscii) ∧
      (Counted number line →
        d.start = some ⟨number, byteLength before⟩ ∧ d.length = some (byteLength name) ∧
        (before.IsAscii → name.IsAscii → markedIn? d text = some name) ∧
        ∀ cwd sourceOf, sourceOf file = some text → ∃ heading,
          Diagnostic.pretty [d] cwd sourceOf = heading ++ ("\n" ++ sourceLine number line ++
            "\n" ++ markLine number d.category.color (byteLength before) (byteLength name) ++
            "\n\n")) := by
  obtain ⟨text, number, line, before, name, after, htext, hline, rfl, hpoints⟩ :=
    pointsAt_of_mem_semanticDiagnostics hd
  exact ⟨text, number, _, before, name, after, htext, hline, rfl, hpoints.about, hpoints.file_eq,
    hpoints.start_eq, hpoints.length_eq, byteLength_eq_length_iff, byteLength_eq_length_iff,
    hpoints.about.isAscii_of_global, fun hc => ⟨hpoints.start_eq_of_counted hc,
      hpoints.length_eq_of_counted hc, hpoints.markedIn?_eq hc hline,
      fun cwd _ hsource => hpoints.pretty_eq hc hline cwd hsource⟩⟩

end Diagnostics

namespace Accented

def host : ServiceHost where
  rootFiles := []
  options := {}
  cwd := Path.ofString "/p"

def file : Path := Path.ofString "/p/a.ts"

def text : Text := "var aé:string=1\n\"é\"+__DEV__"

def disk : Disk where
  store := ({} : Store).add file text

/-- The global of the second line, which stands behind a character of two bytes. -/
def global : Diagnostic :=
  ((Diagnostic.error cannotFindName "Cannot find name '__DEV__'.").withFile file).withSpan ⟨1, 5⟩ 7

/-- The variable of the first line, which has a name of two characters and three bytes. -/
def value : Diagnostic :=
  ((Diagnostic.error typeNotAssignable
    "Type 'number' is not assignable to type 'string'.").withFile file).withSpan ⟨0, 4⟩ 3

theorem diagnostics_text :
    (semanticDiagnostics disk.view 1 host file).1.diagnostics = [global, value] := by
  decide +kernel

theorem global_mem : global ∈ (semanticDiagnostics disk.view 1 host file).1.diagnostics := by
  rw [diagnostics_text]
  exact List.mem_cons_self

/-- Both lines are short. -/
theorem counted {text line : Text} {number : Nat}
    (htext : (host.snapshot disk.view file).1 = some text)
    (hline : (Text.lines text)[number]? = some line) : Counted number line := by
  have hshort : ∀ line ∈ Text.lines Accented.text, byteLength line < 4294967296 := by decide
  cases htext
  obtain ⟨hnumber, rfl⟩ := List.getElem?_eq_some_iff.mp hline
  exact ⟨Nat.lt_of_lt_of_le hnumber (by decide), hshort _ (List.getElem_mem hnumber)⟩

theorem value_mem : value ∈ (semanticDiagnostics disk.view 1 host file).1.diagnostics := by
  rw [diagnostics_text]
  exact List.mem_cons_of_mem _ List.mem_cons_self

end Accented

/-- The global of the second line begins in its sixth byte. -/
theorem span_of_semanticDiagnostics_accented :
    Accented.global ∈
        (semanticDiagnostics Accented.disk.view 1 Accented.host Accented.file).1.diagnostics ∧
      ∃ before name after, IsAbout Accented.global before name after ∧
        byteLength before = 5 ∧ byteLength name = 7 := by
  obtain ⟨text, number, line, before, name, after, htext, hline, -, habout, -, -, -, -, -, -,
    hcounted⟩ := span_of_semanticDiagnostics Accented.global_mem
  have hc : Counted number line := Accented.counted htext hline
  obtain ⟨hstart, hlength, -⟩ := hcounted hc
  refine ⟨Accented.global_mem, before, name, after, habout, ?_, (Option.some.inj hlength).symm⟩
  exact (congrArg Diagnostic.Position.character (Option.some.inj hstart)).symm

/-- What is marked is neither always the global that is not found nor always the variable. -/
theorem not_always_marked :
    (¬ ∀ (view : FileView) (fuel : Nat) (h : ServiceHost) (file : Path) (text : Text)
        (d : Diagnostic), (h.snapshot view file).1 = some text →
        d ∈ (semanticDiagnostics view fuel h file).1.diagnostics → d.code = cannotFindName →
        ∃ name, markedIn? d text = some name ∧
          d.message = "Cannot find name '" ++ name ++ "'.") ∧
      ¬ ∀ (view : FileView) (fuel : Nat) (h : ServiceHost) (file : Path) (text : Text)
        (d : Diagnostic), (h.snapshot view file).1 = some text →
        d ∈ (semanticDiagnostics view fuel h file).1.diagnostics → d.code = typeNotAssignable →
        ∃ start line, d.start = some start ∧ (Text.lines text)[start.line]? = some line ∧
          markedIn? d text = (valueLine? line).map (·.name) := by
  constructor
  · intro hall
    obtain ⟨name, hname, hmessage⟩ := hall _ _ _ _ Accented.text _ rfl Accented.global_mem rfl
    have hmarked : markedIn? Accented.global Accented.text = some ("_DEV__" : Text) := by decide
    rw [hmarked, Option.some.injEq] at hname
    rw [← hname] at hmessage
    exact absurd hmessage (by decide)
  · intro hall
    obtain ⟨start, line, hstart, hline, hname⟩ :=
      hall _ _ _ _ Accented.text _ rfl Accented.value_mem rfl
    cases hstart
    cases hline
    exact absurd hname (by decide +kernel)

end Miniature
end TestTransform

/-
Inlining a map once more changes nothing.

The comment that was put behind a code is the last in it and ends it, so it is what a second
pass takes away.  What is left ends its last line, so the same comment comes back on the same
line.  The map in it was written by this program: it is read back, pointed at the same file and
written as it was.
-/
import TestTransform.Compiler.Output
import TestTransform.Proofs.Json.Records
import TestTransform.Proofs.Text.Base64
import TestTransform.Proofs.Text.Occurrence

namespace TestTransform

/-! ## Reading a value back -/

namespace Json

/-- Whether all floats of a value are the ones that their own texts stand for. -/
def FloatsReread (j : Json) : Prop := ∀ x, .float x ∈ numbers j → (Number.float x).Rereads

theorem IsMachine.rereads {j : Json} (h : IsMachine j) (hfloats : j.FloatsReread) : Rereads j := by
  intro n hn
  cases n with
  | int i => exact Number.rereads_int (h _ hn)
  | float x => exact hfloats x hn

theorem ofText?_compact {j : Json} (hproper : IsProper j) (hfloats : j.FloatsReread)
    (hnesting : nesting j ≤ Form.maxDepth) : ofText? j.compact = some j := by
  rw [ofText?, ofTextRaw?_compact (hproper.2.rereads hfloats) hnesting, Option.map_some,
    hproper.canon_eq]

theorem nesting_of_ofText? {t : Text} {j : Json} (h : ofText? t = some j) :
    nesting j ≤ Form.maxDepth := by
  obtain ⟨raw, hraw, rfl⟩ := Option.map_eq_some_iff.mp h
  obtain ⟨f, -, hvalue⟩ := Option.bind_eq_some_iff.mp hraw
  exact (nesting_canon raw).trans (nesting_of_value? f hvalue)

theorem IsProper.erase {fs : Fields} (hf : IsProper (.obj fs)) (name : Text) :
    IsProper (.obj (Assoc.erase Text.cmp name fs)) := by
  obtain ⟨hrising, hvalues⟩ := isProper_obj.mp hf
  exact isProper_obj.mpr ⟨hrising.erase name, fun f hmem => hvalues f (List.mem_of_mem_filter hmem)⟩

theorem isProper_str (t : Text) : IsProper (.str t) := ⟨rfl, fun n hn => by cases hn⟩

end Json

namespace CompiledOutput

/-! ## Maps -/

/-- The fields of a map pointed at a file. -/
def retarget (file : Path) (fields : Json.Fields) : Json.Fields :=
  let name : Json := .str (Text.replaceChar '\\' '/' file.text)
  Assoc.erase Text.cmp "sourceRoot"
    (Assoc.insert Text.cmp "sources" (.arr [name]) (Assoc.insert Text.cmp "file" name fields))

variable {map : Text} {file : Path} {fields : Json.Fields}

theorem rewriteMap_of_fields (h : Json.ofText? map = some (.obj fields)) (file : Path) :
    rewriteMap map file = (Json.obj (retarget file fields)).compact := by
  rw [rewriteMap, h]
  rfl

/-- What is no object is left as it is. -/
theorem rewriteMap_of_no_fields (h : ∀ fields, Json.ofText? map ≠ some (.obj fields))
    (file : Path) : rewriteMap map file = map := by
  rw [rewriteMap]
  split
  · rename_i fields hfields
    exact absurd hfields (h fields)
  · rfl

/-- Two fields name the file, one is left out and all others stay. -/
theorem field?_retarget (name : Text) :
    Json.field? name (retarget file fields) =
      if name = "sourceRoot" then none
      else if name = "sources" then some (.arr [.str (Text.replaceChar '\\' '/' file.text)])
      else if name = "file" then some (.str (Text.replaceChar '\\' '/' file.text))
      else Json.field? name fields := by
  have heq : ∀ s t : Text, Text.cmp s t = .eq ↔ s = t := fun s t =>
    Std.LawfulEqCmp.compare_eq_iff_eq
  simp only [Json.field?, retarget, Assoc.find?_erase, Assoc.find?_insert, heq,
    eq_comm (a := (("sourceRoot" : String).toList : Text))]

theorem mem_retarget {f : Text × Json} (h : f ∈ retarget file fields) :
    f ∈ fields ∨ ∃ t, f.2 = .str t ∨ f.2 = .arr [.str t] := by
  rcases Assoc.mem_of_mem_insert (List.mem_of_mem_filter h) with h | ⟨-, hvalue⟩
  · rcases Assoc.mem_of_mem_insert h with h | ⟨-, hvalue⟩
    · exact .inl h
    · exact .inr ⟨_, .inl hvalue⟩
  · exact .inr ⟨_, .inr hvalue⟩

theorem isProper_retarget (h : Json.IsProper (.obj fields)) :
    Json.IsProper (.obj (retarget file fields)) := by
  have hname : Json.IsProper (.str (Text.replaceChar '\\' '/' file.text)) := Json.isProper_str _
  refine ((h.insert hname _).insert (x := .arr [.str _]) ⟨rfl, fun n hn => ?_⟩ _).erase _
  cases hn

theorem floatsReread_retarget (h : (Json.obj fields).FloatsReread) :
    (Json.obj (retarget file fields)).FloatsReread := by
  intro x hx
  obtain ⟨f, hf, hmem⟩ := Json.mem_fieldNumbers.mp hx
  rcases mem_retarget hf with hf | ⟨t, ht | ht⟩
  · exact h x (Json.mem_fieldNumbers.mpr ⟨f, hf, hmem⟩)
  · rw [ht] at hmem
    cases hmem
  · rw [ht] at hmem
    cases hmem

theorem nesting_retarget (h : Json.nesting (.obj fields) ≤ Json.Form.maxDepth) :
    Json.nesting (.obj (retarget file fields)) ≤ Json.Form.maxDepth := by
  have hfields := Json.fieldNesting_le.mp (Nat.le_sub_one_of_lt h)
  refine Nat.succ_le_of_lt (Nat.lt_of_le_of_lt (Json.fieldNesting_le.mpr fun f hf => ?_)
    (by decide : Json.Form.maxDepth - 1 < Json.Form.maxDepth))
  rcases mem_retarget hf with hf | ⟨t, ht | ht⟩
  · exact hfields f hf
  · rw [ht]
    exact Nat.zero_le _
  · rw [ht]
    exact (by decide : 1 ≤ Json.Form.maxDepth - 1)

/-- A map that was pointed at a file is read back. -/
theorem ofText?_rewriteMap (h : Json.ofText? map = some (.obj fields))
    (hfloats : (Json.obj fields).FloatsReread) (file : Path) :
    Json.ofText? (rewriteMap map file) = some (.obj (retarget file fields)) := by
  rw [rewriteMap_of_fields h]
  exact Json.ofText?_compact (isProper_retarget (Json.isProper_of_ofText? h))
    (floatsReread_retarget hfloats) (nesting_retarget (Json.nesting_of_ofText? h))

theorem retarget_retarget (h : Json.IsProper (.obj fields)) :
    retarget file (retarget file fields) = retarget file fields := by
  have honce : Json.IsProper (.obj (retarget file fields)) := isProper_retarget h
  refine (Json.isProper_obj.mp (isProper_retarget honce)).1.ext (Json.isProper_obj.mp honce).1 ?_
  intro name
  show Json.field? name (retarget file (retarget file fields)) = Json.field? name (retarget file fields)
  simp only [field?_retarget]
  split
  · rfl
  · split
    · rfl
    · split <;> rfl

theorem rewriteMap_rewriteMap
    (hfloats : ∀ j, Json.ofText? map = some j → j.FloatsReread) (file : Path) :
    rewriteMap (rewriteMap map file) file = rewriteMap map file := by
  by_cases h : ∃ fields, Json.ofText? map = some (.obj fields)
  · obtain ⟨fields, h⟩ := h
    rw [rewriteMap_of_fields (ofText?_rewriteMap h (hfloats _ h) file),
      retarget_retarget (Json.isProper_of_ofText? h), ← rewriteMap_of_fields h]
  · have hnone := rewriteMap_of_no_fields (fun fields hf => h ⟨fields, hf⟩) file
    rw [hnone, hnone]

/-! ## Comments -/

/-- The code with its last line ended. -/
def closed (code : Text) : Text :=
  if code == [] || code.getLast? == some '\n' then code else code ++ ['\n']

theorem inline_eq (code map : Text) : inline code map = closed code ++ comment map := by
  rw [inline, closed]
  split
  · rfl
  · rw [List.append_assoc]
    rfl

theorem closed_of_isEnded {code : Text} (h : code.IsEnded) : closed code = code := by
  rw [closed, if_pos]
  rw [Bool.or_eq_true, beq_iff_eq, beq_iff_eq]
  exact h

theorem closed_of_not_isEnded {code : Text} (h : ¬ code.IsEnded) : closed code = code ++ ['\n'] := by
  rw [closed, if_neg]
  rw [Bool.or_eq_true, beq_iff_eq, beq_iff_eq]
  exact h

theorem isEnded_closed (code : Text) : (closed code).IsEnded := by
  by_cases h : code.IsEnded
  · rwa [closed_of_isEnded h]
  · rw [closed_of_not_isEnded h]
    exact Text.isEnded_of_last rfl code

/-- A marker is the last one if one of its signs is missing behind it. -/
theorem splitAtLast?_marker {t : Text} (h : '/' ∉ t ∨ '#' ∉ t) (before : Text) :
    Text.splitAtLast? marker (before ++ (marker ++ t)) = some (before, marker ++ t) := by
  have hspace : Text.splitAtLast? marker (" sourceMappingURL=" ++ t) = none := by
    rcases h with h | h
    · exact Text.splitAtLast?_eq_none (d := '/') (by decide) (by simpa using h)
    · exact Text.splitAtLast?_eq_none (d := '#') (by decide) (by simpa using h)
  have hfirst : Text.startsWith (marker ++ t) marker = true := Text.startsWith_iff.mpr ⟨t, rfl⟩
  have hmarker : Text.splitAtLast? marker (marker ++ t) = some ([], marker ++ t) := by
    have hsigns : marker ++ t = '/' :: '/' :: '#' :: (" sourceMappingURL=" ++ t) := rfl
    have hthird : Text.startsWith ('#' :: (" sourceMappingURL=" ++ t)) marker = false := rfl
    have hsecond : Text.startsWith ('/' :: '#' :: (" sourceMappingURL=" ++ t)) marker = false := rfl
    rw [hsigns] at hfirst ⊢
    simp only [Text.splitAtLast?, hspace, hthird, hsecond, hfirst, Bool.false_eq_true, if_false,
      if_true]
  have hsplit := Text.splitAtLast?_append hmarker before
  rwa [List.append_nil] at hsplit

/-- What is written behind the marker has neither a sign of it nor an end of line. -/
theorem not_mem_data {c : Char} (hlead : c ∉ dataPrefix) (hletter : ¬ Base64.IsWritten c)
    (map : Text) : c ∉ dataPrefix ++ Base64.encode map.utf8 := by
  rw [List.mem_append]
  exact not_or.mpr ⟨hlead, Base64.not_mem_encode hletter _⟩

/-- A last line that begins with the marker is taken away. -/
theorem body_append {t : Text} (h : '/' ∉ t ∨ '#' ∉ t) (hline : '\n' ∉ t) (before : Text) :
    body (before ++ (marker ++ t)) = before := by
  have hkept : (Text.trimEnd (marker ++ t)).contains '\n' = false := by
    rw [Bool.eq_false_iff, ne_eq, List.contains_iff_mem]
    intro hmem
    rcases List.mem_append.mp (Text.mem_of_mem_trimEnd hmem) with hmem | hmem
    · exact absurd hmem (by decide)
    · exact hline hmem
  simp only [body, splitAtLast?_marker h before, hkept, Bool.false_eq_true, if_false]

/-- The comment of a map is taken away from what it was put behind. -/
theorem body_comment (before map : Text) : body (before ++ comment map) = before := by
  rw [comment, List.append_assoc]
  exact body_append (.inr (not_mem_data (by decide) (by decide) map))
    (not_mem_data (by decide) (by decide) map) before

/-! ## A second pass -/

/-- What was finalized for a file is not changed by finalizing it for that file again, as far as
the floats of its map are read back from their own texts. -/
theorem finalize_finalize (code : Text) (map : Option Text) (file : Path)
    (hfloats : ∀ m ∈ map, ∀ j, Json.ofText? m = some j → j.FloatsReread) :
    let out := finalize code map file
    finalize out.code out.map file = out := by
  cases map with
  | none => rfl
  | some m =>
    have hmap := rewriteMap_rewriteMap (hfloats m rfl) file
    simp only [finalize, hmap, inline_eq, body_comment, closed_of_isEnded (isEnded_closed _)]

/-- The map has a float and a `sourceRoot`, and the comment it comes for does not begin its
line. -/
theorem finalize_finalize_mapped :
    let code : Text := "let a; //# sourceMappingURL=a.js.map"
    let map : Text := "\x7b\"sourceRoot\": \"src\", \"version\": 1.5\x7d"
    let file := Path.ofString "/a.ts"
    let out := finalize code (some map) file
    (∀ j, Json.ofText? map = some j → j.FloatsReread) ∧ out.map ≠ some map ∧
      finalize out.code out.map file = out := by
  intro code map file out
  have hread : Json.ofText? map = some (.obj [("sourceRoot", .str "src"),
      ("version", .num (.float ⟨false, 6755399441055744, -52⟩))]) := by decide +kernel
  have hfloats : ∀ j, Json.ofText? map = some j → j.FloatsReread := by
    intro j hj x hx
    rw [hread] at hj
    cases hj
    rw [List.mem_singleton.mp hx]
    decide +kernel
  refine ⟨hfloats, by decide +kernel, finalize_finalize code (some map) file fun m hm => ?_⟩
  cases hm
  exact hfloats

end CompiledOutput
end TestTransform

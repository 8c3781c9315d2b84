/-
What inlining a map keeps of a script.

The marker is looked for as a text, and what it begins is taken away unless a further line with
something on it follows.  That is right for a comment that ends the script.  Anywhere else, in a
literal or in a comment with code behind it, the rest of the script goes with the marker; there
the whole script is kept exactly if a further line follows.
-/
import TestTransform.Compiler.Isolated
import TestTransform.Proofs.Compiler.Output
import TestTransform.Proofs.Script.Reading

namespace TestTransform
namespace CompiledOutput

open Script (Element spell Reads executable)

/-! ## What is cut -/

/-- Whether a line ends in a text and something that is not blank stands behind it. -/
def HasFurtherLine (t : Text) : Prop :=
  ∃ a b, t = a ++ '\n' :: b ∧ ∃ d ∈ b, Text.isBlank d = false

variable {code front rest map : Text}

theorem body_of_unmarked (h : Text.splitAtLast? marker code = none) : body code = code := by
  rw [body, h]

theorem body_of_furtherLine (h : Text.splitAtLast? marker code = some (front, rest))
    (hfurther : HasFurtherLine rest) : body code = code := by
  have hmem : (Text.trimEnd rest).contains '\n' = true :=
    List.contains_iff_mem.mpr ((Text.mem_trimEnd_iff (by decide)).mpr hfurther)
  simp only [body, h, hmem, if_true]

theorem body_of_lastLine (h : Text.splitAtLast? marker code = some (front, rest))
    (hlast : ¬ HasFurtherLine rest) : body code = front := by
  have hmem : (Text.trimEnd rest).contains '\n' = false := by
    rw [Bool.eq_false_iff, ne_eq, List.contains_iff_mem, Text.mem_trimEnd_iff (by decide)]
    exact hlast
  simp only [body, h, hmem, Bool.false_eq_true, if_false]

theorem prefix_closed (code : Text) : code <+: closed code := by
  rw [closed]
  split
  · exact List.prefix_refl code
  · exact List.prefix_append code _

/-- The code of an output with a map. -/
theorem code_finalize (code map : Text) (file : Path) :
    (finalize code (some map) file).code =
      closed (body code) ++ comment (rewriteMap map file) :=
  inline_eq (body code) (rewriteMap map file)

theorem body_isPrefix (code map : Text) (file : Path) :
    body code <+: (finalize code (some map) file).code := by
  rw [code_finalize]
  exact (prefix_closed (body code)).trans (List.prefix_append _ _)

theorem code_isPrefix (h : body code = code) (map : Text) (file : Path) :
    code <+: (finalize code (some map) file).code := by
  have hbody := body_isPrefix code map file
  rwa [h] at hbody

theorem eq_append_of_split (h : Text.splitAtLast? marker code = some (front, rest)) :
    ∃ behind, code = front ++ rest ∧ rest = marker ++ behind := by
  obtain ⟨hcode, hstart⟩ := Text.splitAtLast?_eq_some h
  obtain ⟨behind, hrest⟩ := Text.startsWith_iff.mp hstart
  exact ⟨behind, hcode, hrest⟩

/-! ## The comment that is put behind -/

/-- Signs that never stand in the comment of a map: the ends of lines, and what ends literals and
comments. -/
def foreign : Text := Script.lineEnds ++ ['*', '"', '\'', '`', '{']

theorem not_mem_foreign {c : Char} (h : c ∈ comment map) : c ∉ foreign := by
  have hforeign : foreign.all fun c =>
      decide (c ∉ marker ∧ c ∉ dataPrefix ∧ ¬ Base64.IsWritten c) := by decide
  intro hc
  obtain ⟨hmarker, hlead, hletter⟩ := of_decide_eq_true (List.all_eq_true.mp hforeign c hc)
  rw [comment, List.append_assoc, List.mem_append] at h
  exact h.elim hmarker (not_mem_data hlead hletter map)

/-- As an element of a script. -/
def commentLine (map : Text) : Element :=
  .line ("# sourceMappingURL=" ++ (dataPrefix ++ Base64.encode map.utf8))

theorem text_commentLine (map : Text) : (commentLine map).text = comment map := by
  rw [comment, List.append_assoc]
  rfl

theorem fits_commentLine (map : Text) : (commentLine map).Fits none := by
  refine ⟨fun c hc hend => ?_, fun c hc => by cases hc⟩
  have hmem : c ∈ comment map := by
    rw [← text_commentLine]
    exact List.mem_cons_of_mem _ (List.mem_cons_of_mem _ hc)
  exact not_mem_foreign hmem (List.mem_append_left _ hend)

/-- With its last line ended, a script reads as before in front of the comment. -/
theorem reads_commented {es : List Element} (h : Reads none es) (map : Text) :
    ∃ es', Reads none es' ∧ spell es' = closed (spell es) ++ comment map ∧
      executable es' = executable es := by
  by_cases hend : (spell es).IsEnded
  · refine ⟨es ++ [commentLine map], Script.reads_append.mpr ⟨h.of_ended hend _,
      fits_commentLine map, trivial⟩, ?_, ?_⟩
    · rw [closed_of_isEnded hend, Script.spell_append, Script.spell_cons, Script.spell_nil,
        List.append_nil, text_commentLine]
    · rw [Script.executable_append]
      exact List.append_nil _
  · have hnewline : (Element.plain '\n').Fits (some '/') :=
      ⟨by decide, fun h => absurd h (by decide)⟩
    have hhead : (spell [commentLine map]).head? = some '/' := rfl
    refine ⟨es ++ [.plain '\n', commentLine map],
      Script.reads_append.mpr ⟨h.before_line, ?_, fits_commentLine map, trivial⟩, ?_, ?_⟩
    · rw [hhead]
      exact hnewline
    · rw [closed_of_not_isEnded hend, Script.spell_append, Script.spell_cons, Script.spell_cons,
        Script.spell_nil, List.append_nil, text_commentLine, List.append_assoc]
      rfl
    · rw [Script.executable_append]
      exact List.append_nil _

/-! ## Where the marker lies -/

/-- Whether the marker behind `front` lies in a comment `e`, behind `before`, that ends the
script. -/
def EndsScript (es : List Element) (front : Text) (before : List Element) (e : Element) : Prop :=
  ∃ back inner behind, es = before ++ e :: back ∧ (∀ x ∈ back, x.isBlank = true) ∧
    e.isComment = true ∧ e.text = inner ++ (marker ++ behind) ∧ front = spell before ++ inner

variable {es before : List Element} {e : Element}

/-- What stands in front of the comment is all that is executed. -/
theorem EndsScript.executable_eq (h : EndsScript es front before e) :
    executable es = executable before := by
  obtain ⟨back, inner, behind, rfl, hback, hcomment, -, -⟩ := h
  have hnone : executable (e :: back) = [] := by
    refine List.filter_eq_nil_iff.mpr fun x hx => ?_
    rcases List.mem_cons.mp hx with rfl | hx
    · simp [hcomment]
    · simp [hback x hx]
  rw [Script.executable_append, hnone, List.append_nil]

/-- A line comment is cut at the marker, and what is left reads as before. -/
theorem EndsScript.exists_reads {body : Text} (h : EndsScript es front before (.line body))
    (hes : Reads none es) :
    ∃ es', Reads none es' ∧ spell es' = front ∧ executable es <+: executable es' := by
  have hexecutable := h.executable_eq
  obtain ⟨back, inner, behind, rfl, -, -, htext, rfl⟩ := h
  rw [hexecutable]
  have htext' : '/' :: '/' :: body = inner ++ (marker ++ behind) := htext
  cases inner with
  | nil =>
    refine ⟨before, (Script.reads_append.mp hes).1.at_end, (List.append_nil _).symm, ?_⟩
    exact List.prefix_refl _
  | cons c inner =>
    obtain ⟨rfl, htail⟩ := List.cons.inj htext'
    -- One slash of the comment stays, or both do and still begin a comment.
    have hkept : ∀ kept : Element, kept.Fits none → kept.text = '/' :: inner →
        ∃ es', Reads none es' ∧ spell es' = spell before ++ '/' :: inner ∧
          executable before <+: executable es' := by
      intro kept hfits hspelled
      refine ⟨before ++ [kept], hes.exchange hfits (by rw [hspelled]; rfl), ?_, ?_⟩
      · rw [Script.spell_append, Script.spell_cons, hspelled, Script.spell_nil, List.append_nil]
      · rw [Script.executable_append]
        exact List.prefix_append _ _
    cases inner with
    | nil => exact hkept (.plain '/') ⟨by decide, fun _ c hc => by cases hc⟩ rfl
    | cons d inner =>
      obtain ⟨rfl, rfl⟩ := List.cons.inj htail
      have hfits : Element.Fits _ (.line (inner ++ (marker ++ behind))) :=
        (Script.reads_append.mp hes).2.1
      exact hkept (.line inner)
        ⟨fun c hc => hfits.1 c (List.mem_append_left _ hc), fun c hc => by cases hc⟩ rfl

/-! ## Elsewhere -/

theorem getLast?_or_mem {s inner tail : Text} {c d : Char} (h : s ++ [c, d] = inner ++ tail)
    (htail : tail ≠ []) : inner.getLast? = some c ∨ c ∈ tail := by
  obtain ⟨tail, d', rfl⟩ := (List.eq_nil_or_concat' tail).resolve_left htail
  have hinit : s ++ [c] = inner ++ tail := by
    refine List.append_inj_left' (?_ : (s ++ [c]) ++ [d] = (inner ++ tail) ++ [d']) rfl
    rw [List.append_assoc, List.append_assoc]
    exact h
  have hlast := congrArg List.getLast? hinit
  rw [List.getLast?_concat, List.getLast?_append] at hlast
  cases ht : tail.getLast? with
  | none =>
    rw [ht] at hlast
    exact .inl hlast.symm
  | some e =>
    rw [ht] at hlast
    cases hlast
    exact .inr (List.mem_append_left _ (List.mem_of_getLast? ht))

/-- An element that has no foreign sign from the marker on, and the marker at the beginning of a
line, is a line comment. -/
theorem exists_eq_line {back : List Element} {inner tail behind : Text}
    (hfits : e.Fits ((spell back).head?.or none)) (htext : e.text = inner ++ tail)
    (htail : tail ≠ []) (hinner : inner.IsEnded) (hsign : ∀ c ∈ tail, c ∉ foreign)
    (hmarker : '/' :: '/' :: behind = tail ++ spell back) : ∃ body, e = .line body := by
  -- What ends a literal is foreign, so the marker cannot lie in front of it.
  have hclosed : ∀ s c, e.text = s ++ [c] → c ∉ foreign := by
    intro s c hc
    refine hsign c (List.mem_of_getLast? ?_)
    have hlast : (inner ++ tail).getLast? = some c := by
      rw [← htext, hc, List.getLast?_concat]
    rwa [List.getLast?_append_of_ne_nil _ htail] at hlast
  cases e with
  | line body => exact ⟨body, rfl⟩
  | block body =>
    have hstar : '*' ∉ tail := fun h => hsign _ h (by decide)
    have hlast := (getLast?_or_mem (s := '/' :: '*' :: body) htext htail).resolve_right hstar
    rcases hinner with rfl | hinner
    · cases hlast
    · rw [hlast] at hinner
      cases hinner
  | quoted quote body =>
    have hquotes : (['"', '\''] : Text) ⊆ foreign := by decide
    exact absurd (hquotes hfits.1) (hclosed (quote :: body) quote rfl)
  | template first body last =>
    cases last with
    | true => exact absurd (by decide) (hclosed (_ :: body) '`' rfl)
    | false =>
      have htext' := List.append_assoc ((if first then '`' else '}') :: body) ['$'] ['{']
      exact absurd (by decide) (hclosed _ '{' htext'.symm)
  | pattern body =>
    obtain ⟨hne, hhead, hline, -⟩ := hfits
    rcases hinner with rfl | hinner
    · -- The second slash of the marker cannot begin a pattern.
      cases body with
      | nil => exact absurd rfl hne
      | cons c body =>
        have htail' : tail = (Element.pattern (c :: body)).text := htext.symm
        rw [htail'] at hmarker
        have hslash : '/' = c := (List.cons.inj (List.cons.inj hmarker).2).1
        exact absurd (by decide) (hhead '/' (hslash ▸ rfl))
    · have hmem : '\n' ∈ inner ++ tail := List.mem_append_left tail (List.mem_of_getLast? hinner)
      rw [← htext] at hmem
      have hbody : '\n' ∈ body := by simpa [Element.text] using hmem
      exact absurd (by decide) (hline _ hbody)
  | plain c =>
    cases inner with
    | nil =>
      -- Nor can it stand behind a slash that is none of a comment.
      have htail' : tail = (Element.plain c).text := htext.symm
      rw [htail'] at hmarker
      obtain ⟨rfl, hback⟩ := List.cons.inj hmarker
      rw [show spell back = _ from hback.symm] at hfits
      exact absurd (by decide) (hfits.2 rfl '/' rfl)
    | cons d inner =>
      have hnil := (List.cons.inj htext).2
      exact absurd (List.append_eq_nil_iff.mp hnil.symm).2 htail

/-- If the comment is put where the marker stands, and the whole script is at the beginning of
what comes out, the marker lies in a comment that ends the script. -/
theorem endsScript_of_isPrefix (hes : Reads none es) {behind data : Text}
    (hsplit : spell es = front ++ (marker ++ behind)) (hended : front.IsEnded)
    (hbehind : behind <+: dataPrefix ++ Base64.encode data.utf8) :
    ∃ before e, EndsScript es front before e := by
  have hsign : ∀ c ∈ marker ++ behind, c ∉ foreign := by
    intro c hc
    have hcomment : c ∈ comment data := by
      rw [comment, List.append_assoc]
      exact (List.prefix_append_right_inj marker).mpr hbehind |>.mem hc
    exact not_mem_foreign hcomment
  obtain ⟨before, e, back, inner, tail, rfl, htext, htail, rfl, hrest⟩ :=
    Script.exists_element hsplit (List.append_ne_nil_of_left_ne_nil (by decide) _)
  obtain ⟨-, hfits, -⟩ := Script.reads_append.mp hes
  have hslashes : '/' :: '/' :: ("# sourceMappingURL=" ++ behind) = tail ++ spell back := hrest
  obtain ⟨body, rfl⟩ := exists_eq_line hfits htext htail hended.of_append
    (fun c hc => hsign c (hrest ▸ List.mem_append_left _ hc)) hslashes
  -- Only the end of a line could follow, and that is foreign.
  have hback : back = [] := by
    refine Script.eq_nil_of_spell (List.head?_eq_none_iff.mp ?_)
    cases hc : (spell back).head? with
    | none => rfl
    | some c =>
      have hend : c ∈ Script.lineEnds := hfits.2 c (by rw [hc]; rfl)
      exact absurd (List.mem_append_left _ hend)
        (hsign c (hrest ▸ List.mem_append_right _ (List.mem_of_head? hc)))
  subst hback
  rw [Script.spell_nil, List.append_nil] at hrest
  exact ⟨before, _, [], inner, behind, rfl, fun x hx => (by cases hx), rfl, hrest ▸ htext, rfl⟩

/-! ## What is kept -/

/-- What the code that comes out keeps of a script. -/
structure Keeps (code out : Text) : Prop where
  unmarked : Text.splitAtLast? marker code = none → code <+: out
  front : ∀ {front rest}, Text.splitAtLast? marker code = some (front, rest) → front <+: out
  furtherLine : ∀ {front rest}, Text.splitAtLast? marker code = some (front, rest) →
    HasFurtherLine rest → code <+: out
  /-- All in front of a comment that ends the script, and so all that is executed. -/
  comment : ∀ {es front rest before e}, Reads none es → spell es = code →
    Text.splitAtLast? marker code = some (front, rest) → EndsScript es front before e →
      spell before <+: out ∧ executable es = executable before
  /-- If the marker lies anywhere else, a further line is what the rest of the script depends
  on. -/
  elsewhere : ∀ {es front rest}, Reads none es → spell es = code →
    Text.splitAtLast? marker code = some (front, rest) →
      (∀ before e, ¬ EndsScript es front before e) → (code <+: out ↔ HasFurtherLine rest)
  /-- With a further line, or with the marker in a line comment that ends the script, what comes
  out is a script that begins with all that is executed. -/
  executable : ∀ {es}, Reads none es → spell es = code →
    (∀ {front rest}, Text.splitAtLast? marker code = some (front, rest) →
      HasFurtherLine rest ∨ ∃ before body, EndsScript es front before (.line body)) →
    ∃ es', Reads none es' ∧ spell es' = out ∧ Script.executable es <+: Script.executable es'

theorem front_isPrefix (h : Text.splitAtLast? marker code = some (front, rest)) (map : Text)
    (file : Path) : front <+: (finalize code (some map) file).code := by
  by_cases hfurther : HasFurtherLine rest
  · obtain ⟨-, hcode, -⟩ := eq_append_of_split h
    have hfront : front <+: code := hcode ▸ List.prefix_append front rest
    exact hfront.trans (code_isPrefix (body_of_furtherLine h hfurther) map file)
  · have hbody := body_isPrefix code map file
    rwa [body_of_lastLine h hfurther] at hbody

/-- Without a further line, what is cut comes back only if the same comment is put there. -/
theorem behind_isPrefix {behind : Text}
    (h : Text.splitAtLast? marker code = some (front, marker ++ behind))
    (hlast : ¬ HasFurtherLine (marker ++ behind)) {file : Path}
    (hcode : code <+: (finalize code (some map) file).code) :
    front.IsEnded ∧ behind <+: dataPrefix ++ Base64.encode (rewriteMap map file).utf8 := by
  obtain ⟨hcut, -⟩ := Text.splitAtLast?_eq_some h
  rw [code_finalize, body_of_lastLine h hlast] at hcode
  nth_rewrite 1 [hcut] at hcode
  by_cases hended : front.IsEnded
  · rw [closed_of_isEnded hended, comment, List.append_assoc] at hcode
    exact ⟨hended, (List.prefix_append_right_inj marker).mp
      ((List.prefix_append_right_inj front).mp hcode)⟩
  · rw [closed_of_not_isEnded hended, List.append_assoc] at hcode
    obtain ⟨t, ht⟩ := (List.prefix_append_right_inj front).mp hcode
    -- The marker does not begin with the end of a line.
    exact absurd (List.cons.inj ht).1 (by decide)

theorem keeps_finalize (code map : Text) (file : Path) :
    Keeps code (finalize code (some map) file).code where
  unmarked h := code_isPrefix (body_of_unmarked h) map file
  front h := front_isPrefix h map file
  furtherLine h hfurther := code_isPrefix (body_of_furtherLine h hfurther) map file
  comment {es front rest before e} _ _ hsplit h := by
    have hfront := front_isPrefix hsplit map file
    obtain ⟨_, inner, _, _, _, _, _, hinner⟩ := id h
    exact ⟨(hinner ▸ List.prefix_append (spell before) inner).trans hfront, h.executable_eq⟩
  elsewhere {es front rest} hes hspell hsplit helsewhere := by
    refine ⟨fun hcode => ?_, fun h => code_isPrefix (body_of_furtherLine hsplit h) map file⟩
    by_contra hlast
    obtain ⟨behind, hcut, rfl⟩ := eq_append_of_split hsplit
    obtain ⟨hended, hbehind⟩ := behind_isPrefix hsplit hlast hcode
    obtain ⟨before, e, hends⟩ := endsScript_of_isPrefix hes (hspell.trans hcut) hended hbehind
    exact helsewhere before e hends
  executable {es} hes hspell hkept := by
    rw [code_finalize]
    have hwhole : body code = code → ∃ es', Reads none es' ∧
        spell es' = closed (body code) ++ comment (rewriteMap map file) ∧
          Script.executable es <+: Script.executable es' := by
      intro hbody
      obtain ⟨es', hes', hspell', hsame⟩ := reads_commented hes (rewriteMap map file)
      exact ⟨es', hes', by rw [hspell', hspell, hbody], hsame ▸ List.prefix_refl _⟩
    cases hsplit : Text.splitAtLast? marker code with
    | none => exact hwhole (body_of_unmarked hsplit)
    | some cut =>
      by_cases hfurther : HasFurtherLine cut.2
      · exact hwhole (body_of_furtherLine hsplit hfurther)
      · obtain ⟨before, body, hends⟩ := (hkept hsplit).resolve_left hfurther
        obtain ⟨kept, hkept, hfront, hsame⟩ := hends.exists_reads hes
        obtain ⟨es', hes', hspell', hsame'⟩ := reads_commented hkept (rewriteMap map file)
        refine ⟨es', hes', ?_, hsame' ▸ hsame⟩
        rw [hspell', hfront, body_of_lastLine hsplit hfurther]

/-- What is read for a file of a referenced project. -/
theorem readReferenced_eq_ok {disk : Disk} {r : ProjectReference} {file : Path}
    {out : CompiledOutput} :
    IsolatedCompiler.readReferenced disk r file = .ok out ↔
      disk.hasFile (r.outputFor file) = true ∧ ∃ code, disk.read? (r.outputFor file) = some code ∧
        finalize code (disk.read? ((r.outputFor file).append ".map")) file = out := by
  have hread : disk.read? (r.outputFor file) = (disk.read (r.outputFor file)).toOption := rfl
  rw [IsolatedCompiler.readReferenced, hread]
  cases hfile : disk.hasFile (r.outputFor file) with
  | false => simp
  | true => cases disk.read (r.outputFor file) <;> simp [Except.toOption]

/-- An output for a file keeps the code as it is if there is no map.  If there is one, it keeps
all that is executed of a script, but for the marker on the last line outside of a comment that
ends it.  The same holds of what the build of a referenced project has put on disk. -/
theorem finalize_keeps (file : Path) :
    (∀ code, finalize code none file = ⟨code, none⟩) ∧
    (∀ code map, Keeps code (finalize code (some map) file).code) ∧
    ∀ {disk r out}, IsolatedCompiler.readReferenced disk r file = .ok out →
      ∃ code, disk.read? (r.outputFor file) = some code ∧
        (disk.read? ((r.outputFor file).append ".map") = none → out = ⟨code, none⟩) ∧
        ∀ map, disk.read? ((r.outputFor file).append ".map") = some map →
          Keeps code out.code := by
  refine ⟨fun _ => rfl, fun code map => keeps_finalize code map file, fun h => ?_⟩
  obtain ⟨-, code, hcode, rfl⟩ := readReferenced_eq_ok.mp h
  refine ⟨code, hcode, fun hmap => ?_, fun map hmap => ?_⟩
  · rw [hmap]
    rfl
  · rw [hmap]
    exact keeps_finalize code map file

namespace Built

/-- A script in front of the comment that ends it. -/
def lead : List Element := ("b();\n" : Text).map .plain

def line : Element := .line "# sourceMappingURL=a.js.map"

def script : Text := spell (lead ++ [line])

/-- The script and its map, as the build of a project puts them on disk. -/
def disk : Disk :=
  ⟨(Store.add {} (.ofString "/a.js") script).add (.ofString "/a.js.map") "\x7b\x7d", {}⟩

def project : ProjectReference := ⟨.ofString "/tsconfig.json", .ofString "/", none, none, none⟩

end Built

/-- A built output with a comment that ends it, and its map. -/
theorem finalize_keeps_built :
    let es := Built.lead ++ [Built.line]
    ∃ out, IsolatedCompiler.readReferenced Built.disk Built.project (.ofString "/a.ts") = .ok out ∧
      Reads none es ∧ EndsScript es (spell Built.lead) Built.lead Built.line ∧
      spell Built.lead <+: out.code ∧
      ∃ es', Reads none es' ∧ spell es' = out.code ∧ executable es <+: executable es' := by
  intro es
  obtain ⟨hfile, hdisk, hmap⟩ :
      Built.disk.hasFile (Built.project.outputFor (.ofString "/a.ts")) = true ∧
      Built.disk.read? (Built.project.outputFor (.ofString "/a.ts")) = some Built.script ∧
      Built.disk.read? ((Built.project.outputFor (.ofString "/a.ts")).append ".map") =
        some "\x7b\x7d" := by
    decide +kernel
  have hread := readReferenced_eq_ok.mpr ⟨hfile, _, hdisk, rfl⟩
  have hreads : Reads none es := by decide
  have hsplit : Text.splitAtLast? marker Built.script = some (spell Built.lead, Built.line.text) := by
    decide
  have hends : EndsScript es (spell Built.lead) Built.lead Built.line :=
    ⟨[], [], "a.js.map", rfl, fun x hx => (by cases hx), rfl, rfl, (List.append_nil _).symm⟩
  obtain ⟨code, hcode, -, hmapped⟩ := (finalize_keeps (.ofString "/a.ts")).2.2 hread
  obtain rfl : Built.script = code := Option.some.inj (hdisk.symm.trans hcode)
  have hkeeps := hmapped _ hmap
  refine ⟨_, hread, hreads, hends, (hkeeps.comment hreads rfl hsplit hends).1,
    hkeeps.executable hreads rfl fun h => ?_⟩
  rw [hsplit] at h
  cases h
  exact .inr ⟨Built.lead, _, hends⟩

/-- A marker in a literal on the last line takes the end of the script with it. -/
theorem not_always_keeps :
    ¬ ∀ (code map : Text) (file : Path) (es : List Element) (front rest : Text),
      Reads none es → spell es = code → Text.splitAtLast? marker code = some (front, rest) →
        (∀ before e, ¬ EndsScript es front before e) →
          code <+: (finalize code (some map) file).code := by
  intro h
  let es : List Element :=
    ("let a = " : Text).map .plain ++ [.quoted '"' "//# sourceMappingURL=b", .plain ';']
  have hcomment : ∀ e ∈ es, e.isComment = false := by decide
  refine absurd (h (spell es) "\x7b\x7d" (.ofString "/a.ts") es "let a = \""
    "//# sourceMappingURL=b\";" (by decide) rfl (by decide) ?_) (by decide +kernel)
  rintro before e ⟨back, inner, behind, hes, -, he, -, -⟩
  rw [hcomment e (hes ▸ List.mem_append_right before List.mem_cons_self)] at he
  cases he

end CompiledOutput
end TestTransform

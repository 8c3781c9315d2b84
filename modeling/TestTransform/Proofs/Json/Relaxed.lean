/-
What the reader of relaxed JSON accepts.

It accepts every rendering with comments between the tokens and trailing commas, and gives its
value.  It accepts more than that, and what it accepts is described here without a rest:
comments may also interrupt a word, the last block comment may lack its end, and a comma may
stand right behind an opening bracket.  Only comments between tokens can be exchanged for
spaces, so a comment inside a numeral makes two numerals into one.
-/
import TestTransform.Proofs.Json.Commas

namespace TestTransform
namespace Json

open Form

section Renderings

variable {commas : Commas} {unclosed : Bool} {j : Json} {t : Text}

theorem Renders.loose (h : Renders (.separated unclosed) commas j t) :
    Renders .loose commas j t := by
  obtain ⟨f, us, hlaid, hspells, hdenotes⟩ := h
  exact ⟨f, us, hlaid.loose, hspells, hdenotes⟩

theorem Renders.commented (h : Renders .plain commas j t) : Renders .commented commas j t := by
  obtain ⟨f, us, hlaid, hspells, hdenotes⟩ := h
  exact ⟨f, us, hlaid.commented, hspells, hdenotes⟩

/-- With spaces in place of its comments a rendering is one with spaces only. -/
theorem Renders.spaced (h : Renders (.separated unclosed) commas j t) :
    Renders .plain commas j (Relaxed.spaced .plain t) := by
  obtain ⟨f, us, hlaid, hspells, hdenotes⟩ := h
  exact ⟨f, us, Relaxed.spaces_spaced.laid_separated hlaid, hspells, hdenotes⟩

end Renderings

namespace Relaxed

variable {commas : Commas} {j : Json} {t : Text}

/-- The text that is read in place of a rendering is one in plain JSON. -/
theorem renders_toPlain (h : Renders .loose commas j t) : Renders .plain .strict j (toPlain t) := by
  obtain ⟨f, us, hlaid, hspells, hdenotes⟩ := h
  exact ⟨f, dropCommas us, laid_dropTrailingCommas (laid_dropComments_iff.mpr hlaid),
    hspells.dropCommas, hdenotes⟩

theorem renders_of_toPlain (h : Renders .plain .strict j (toPlain t)) :
    Renders .loose .bare j t := by
  obtain ⟨f, ts, hlaid, hspells, hdenotes⟩ := h
  obtain ⟨us, hus, rfl⟩ := laid_dropTrailingCommas_iff.mp hlaid
  exact ⟨f, us, laid_dropComments_iff.mp hus, spells_dropCommas_iff.mp hspells, hdenotes⟩

theorem ofText?_of_renders (h : Renders .loose commas j t) (hdepth : nesting j ≤ maxDepth) :
    ofText? t = some j.canon :=
  ofText?_iff.mpr ⟨j, renders_toPlain h, hdepth, rfl⟩

/-! ## Every rendering is accepted -/

/-- A rendering with comments between the tokens and trailing commas is accepted with its value,
and so is everything that the reader of plain JSON accepts. -/
theorem accepts_renderings (t : Text) :
    (∀ j, Renders .commented .trailing j t → nesting j ≤ maxDepth → ofText? t = some j.canon) ∧
    ∀ v, Json.ofText? t = some v → ofText? t = some v := by
  refine ⟨fun j h hdepth => ofText?_of_renders h.loose hdepth, fun v h => ?_⟩
  obtain ⟨j, hj, hdepth, rfl⟩ := ofText?_iff.mp h
  exact ofText?_of_renders hj.commented.loose hdepth

namespace Sample

/-- A text with comments, trailing commas, and strings that hold the signs of both. -/
def text : Text := "\x7b // \"\n \"a//\" : [1, /*,]*/ \"\\\"/*,]\",\n],\x7d// end"

def value : Json := .obj [("a//", .arr [.ofNat 1, .str "\"/*,]"])]

def tokens : List Token :=
  [.mark '{', .string (List.map .char "a//".toList), .mark ':', .mark '[', .word "1", .mark ',',
    .string (List.map .char "\"/*,]".toList), .mark ',', .mark ']', .mark ',', .mark '}']

theorem writesLetters_self {t : Text}
    (h : (t.all fun c => 32 ≤ c.toNat && c != '"' && c != '\\') = true) :
    WritesLetters (t.map .char) t := by
  induction t with
  | nil => exact .nil
  | cons c t ih =>
    simp only [List.all_cons, Bool.and_eq_true, decide_eq_true_eq, bne_iff_ne] at h
    obtain ⟨⟨⟨hlow, hquote⟩, hslash⟩, ht⟩ := h
    exact .plain hlow hquote hslash (ih ht)

theorem laid : Laid .commented tokens text := by
  have hname : WritesLetters (List.map .char "a//".toList) "a//" :=
    writesLetters_self (by decide)
  have hmarkers : WritesLetters (List.map .char "\"/*,]".toList) "\\\"/*,]" :=
    .escape rfl (writesLetters_self (t := "/*,]") (by decide))
  have hline : '\n' ∉ (" \"" : Text) := by decide
  have hblock : IsInside ",]" := by decide
  have hspace : Gap " " := .space rfl .nil
  have hcomment : ∀ {k}, Comment k → Gap (' ' :: (k ++ " ".toList)) :=
    fun hk => .space rfl (.comment hk hspace)
  have hfeed : Gap "\n" := .space rfl .nil
  have hend : Style.commented.ending "// end" := ⟨[], _, rfl, .nil, .line (by decide)⟩
  have hmark : ∀ {c}, isMark c = true → Writes .commented (.mark c) [c] := .mark
  have hlaid := Laid.cons Gap.nil (hmark (c := '{') rfl) <|
    .cons (hcomment (.line hline)) (.string hname) <|
    .cons hspace (hmark (c := ':') rfl) <| .cons hspace (hmark (c := '[') rfl) <|
    .cons Gap.nil (.word (w := "1") (by decide) rfl) <| .cons Gap.nil (hmark (c := ',') rfl) <|
    .cons (hcomment (.block hblock)) (.string hmarkers) <|
    .cons Gap.nil (hmark (c := ',') rfl) <| .cons hfeed (hmark (c := ']') rfl) <|
    .cons Gap.nil (hmark (c := ',') rfl) <| .cons Gap.nil (hmark (c := '}') rfl) <| .nil hend
  exact hlaid

theorem renders : Renders .commented .trailing value text := by
  have hone : (Numeral.ofInt 1).IsWritten "1" := (Numeral.isProper_ofInt 1).isWritten
  exact ⟨_, tokens, laid,
    .obj (.last (.arr (.cons (.num hone) (.last .str (.comma rfl)))) (.comma rfl)), 3, rfl⟩

end Sample

theorem accepts_renderings_sample :
    (Renders .commented .trailing Sample.value Sample.text ∧ nesting Sample.value ≤ maxDepth ∧
      ofText? Sample.text = some Sample.value) ∧
    Json.ofText? "[1 ]" = some (.arr [.ofNat 1]) ∧ ofText? "[1 ]" = some (.arr [.ofNat 1]) := by
  have hdepth : nesting Sample.value ≤ maxDepth := by decide
  have hplain : Json.ofText? "[1 ]" = some (.arr [.ofNat 1]) := by decide +kernel
  exact ⟨⟨Sample.renders, hdepth,
    (accepts_renderings _).1 _ Sample.renders hdepth⟩, hplain, (accepts_renderings _).2 _ hplain⟩

/-! ## Everything that is accepted is a rendering -/

/-- What is accepted is a rendering in the loosest style, with bare commas.  Its comments can be
exchanged for spaces if they stand between tokens. -/
theorem accepts_only_renderings (t : Text) :
    (∀ v, ofText? t = some v ↔
      ∃ j, Renders .loose .bare j t ∧ nesting j ≤ maxDepth ∧ j.canon = v) ∧
    ∀ unclosed j, Renders (.separated unclosed) .bare j t → nesting j ≤ maxDepth →
      ofText? t = some j.canon ∧ ofText? (spaced .plain t) = some j.canon := by
  refine ⟨fun v => ⟨fun h => ?_, ?_⟩, fun unclosed j h hdepth => ⟨?_, ?_⟩⟩
  · obtain ⟨j, hj, hdepth, rfl⟩ := ofText?_iff.mp h
    exact ⟨j, renders_of_toPlain hj, hdepth, rfl⟩
  · rintro ⟨j, hj, hdepth, rfl⟩
    exact ofText?_of_renders hj hdepth
  · exact ofText?_of_renders h.loose hdepth
  · exact ofText?_of_renders h.spaced.commented.loose hdepth

namespace Open

def text : Text := "[,] /* open"

theorem laid : Laid (.separated true) [.mark '[', .mark ',', .mark ']'] text := by
  have hinside : IsInside " open" := by decide
  have hmark : ∀ {c}, isMark c = true → Writes (.separated true) (.mark c) [c] := .mark
  have hlaid := Laid.cons Gap.nil (hmark (c := '[') rfl) <|
    .cons Gap.nil (hmark (c := ',') rfl) <| .cons Gap.nil (hmark (c := ']') rfl) <|
    .nil ⟨" ", _, rfl, .space rfl .nil, .block rfl hinside⟩
  exact hlaid

theorem renders : Renders (.separated true) .bare (.arr []) text :=
  ⟨.arr [], _, laid, .emptyArr (.comma rfl), 1, rfl⟩

end Open

theorem accepts_only_renderings_open :
    (∃ j, Renders .loose .bare j "tr/**/ue" ∧ nesting j ≤ maxDepth ∧ j.canon = .bool true) ∧
    Renders (.separated true) .bare (.arr []) Open.text ∧
    ofText? Open.text = some (.arr []) ∧ ofText? (spaced .plain Open.text) = some (.arr []) := by
  have hword : ofText? "tr/**/ue" = some (.bool true) := by decide +kernel
  exact ⟨((accepts_only_renderings _).1 _).mp hword, Open.renders,
    (accepts_only_renderings _).2 _ _ Open.renders (by decide)⟩

/-- A comment inside a numeral joins what it stands between, a block comment may lack its end,
and an array may hold nothing but a comma. -/
theorem not_always_separators :
    ¬ (∀ t v, ofText? t = some v → ofText? (spaced .plain t) = some v) ∧
    ofText? "[1/**/2]" = some (.arr [.ofNat 12]) ∧
    ofText? "\x7b\x7d /* open" = some (.obj []) ∧
    ofText? "[,]" = some (.arr []) := by
  have hjoined : ofText? "[1/**/2]" = some (.arr [.ofNat 12]) := by decide +kernel
  have hspaced : ofText? (spaced .plain "[1/**/2]") = none := by decide +kernel
  refine ⟨fun h => ?_, hjoined, by decide +kernel, by decide +kernel⟩
  have hsame := h _ _ hjoined
  rw [hspaced] at hsame
  cases hsame

end Relaxed
end Json
end TestTransform

/-
Which files the globs of a project cover.

A file is covered if a glob matches it or a directory around it.  The globs of a project do not
keep their wildcards to segments, as those for tests do.  So a glob of single stars and question
marks covers what it matches segment by segment, but also files further below.
-/
import TestTransform.Config.InputFiles
import TestTransform.Proofs.Glob.Wildcards

namespace TestTransform

namespace Glob

variable {separated : Bool} {sources : List Text} {globs : List Glob}

theorem Reads.unique {source : Text} {g g' : Glob} (h : Reads separated source g)
    (h' : Reads separated source g') : g = g' := by
  obtain ⟨tokens, htokens, hg⟩ := h
  obtain ⟨tokens', htokens', hg'⟩ := h'
  rw [htokens] at htokens'
  obtain rfl := Option.some.inj htokens'
  exact Option.some.inj (hg.symm.trans hg')

theorem anyMatch_iff (hread : readAll separated sources = .ok globs) (p : Path) :
    anyMatch globs p = true ↔
      ∃ source ∈ sources, ∃ g, Reads separated source g ∧ g.isMatch p.text = true := by
  have hall := readAll_eq_ok.mp hread
  clear hread
  rw [anyMatch]
  induction hall with
  | nil => simp
  | @cons source g sources globs hg _ ih =>
    have hhead : (∃ g', Reads separated source g' ∧ g'.isMatch p.text = true) ↔
        g.isMatch p.text = true :=
      ⟨fun ⟨_, hg', hmatch⟩ => hg.unique hg' ▸ hmatch, fun hmatch => ⟨g, hg, hmatch⟩⟩
    rw [List.any_cons, Bool.or_eq_true, List.exists_mem_cons_iff, hhead]
    exact or_congr_right ih

theorem exists_reads_of_mem (hread : readAll separated sources = .ok globs) {source : Text}
    (hsource : source ∈ sources) : ∃ g, Reads separated source g := by
  obtain ⟨g, -, hg⟩ := exists_mem_of_forall₂ (readAll_eq_ok.mp hread) hsource
  exact ⟨g, hg⟩

/-- What a simple glob of a list matches. -/
theorem exists_reads_iff (hread : readAll separated sources = .ok globs) {source : Text}
    (hsource : source ∈ sources) (hsimple : IsSimple source) (t : Text) :
    (∃ g, Reads separated source g ∧ g.isMatch t = true) ↔
      (AdmitsNameless separated source ∨ isNameless t = false) ∧
        WildcardSpells separated source (byteText t) := by
  obtain ⟨g, hg⟩ := exists_reads_of_mem hread hsource
  rw [← hg.wildcards hsimple]
  exact ⟨fun ⟨g', hg', hmatch⟩ => hg.unique hg' ▸ hmatch, fun hmatch => ⟨g, hg, hmatch⟩⟩

end Glob

namespace InputFiles

variable {sources : List Text} {globs : List Glob}

/-- Whether a glob of a list matches a file or a directory around it. -/
def MatchedBy (sources : List Text) (file : Path) : Prop :=
  ∃ source ∈ sources, ∃ q ∈ file.ancestors, ∃ g,
    Glob.Reads false source g ∧ g.isMatch q.text = true

theorem covers_iff (hread : Glob.readAll false sources = .ok globs) (file : Path) :
    covers globs file = true ↔ MatchedBy sources file := by
  simp only [covers, MatchedBy, List.any_eq_true, Glob.anyMatch_iff hread]
  constructor
  · rintro ⟨q, hq, source, hsource, hmatch⟩
    exact ⟨source, hsource, q, hq, hmatch⟩
  · rintro ⟨source, hsource, q, hq, hmatch⟩
    exact ⟨q, hq, source, hsource, hmatch⟩

/-! ## Wildcards -/

open Glob

/-- A file is covered if it or a directory around it fits some glob segment by segment, and
also if it fits in stretches and has more segments than the glob.  If the wildcards keep to
segments, only the first is left. -/
theorem covers_iff_fits (hsimple : ∀ source ∈ sources, IsSimple source)
    (hread : readAll false sources = .ok globs) (file : Path) :
    (covers globs file = true ↔ ∃ source ∈ sources, ∃ q ∈ file.ancestors,
      (AdmitsNameless false source ∨ isNameless q.text = false) ∧
        (FitsBySegment source q.text ∨
          ((Text.splitOn '/' source).length < (Text.splitOn '/' q.text).length ∧
            FitsInStretches source q.text))) ∧
    ∀ kept, readAll true sources = .ok kept →
      (anyMatch kept file = true ↔ ∃ source ∈ sources,
        (AdmitsNameless true source ∨ isNameless file.text = false) ∧
          FitsBySegment source file.text) := by
  constructor
  · rw [covers_iff hread, MatchedBy]
    refine exists_congr fun source => and_congr_right fun hsource => ?_
    refine exists_congr fun q => and_congr_right fun _ => ?_
    rw [exists_reads_iff hread hsource (hsimple source hsource), wildcardSpells_iff_fits]
  · intro kept hkept
    rw [anyMatch_iff hkept]
    refine exists_congr fun source => and_congr_right fun hsource => ?_
    rw [exists_reads_iff hkept hsource (hsimple source hsource),
      wildcardSpells_iff_fitsBySegment]

/-- The glob for the files of a directory that have an ending. -/
def starred : Text := ['/', 'p', '/', '*', '.', 't', 's']

/-- A file two directories deep. -/
def nested : Path := ⟨['/', 'p', '/', 'a', '/', 'b', '.', 't', 's']⟩

theorem isSimple_starred : ∀ source ∈ [starred], IsSimple source := by
  intro source hsource
  obtain rfl := List.mem_singleton.mp hsource
  exact ⟨by decide, by decide, by decide⟩

theorem exists_readAll_starred : ∃ globs, readAll false [starred] = .ok globs := by
  have htokens : tokens? starred = some [.literal '/', .literal 'p', .literal '/', .zeroOrMore,
    .literal '.', .literal 't', .literal 's'] := rfl
  obtain ⟨g, hg⟩ : ∃ g, ofTokens? false [.literal '/', .literal 'p', .literal '/', .zeroOrMore,
    .literal '.', .literal 't', .literal 's'] = some g := exists_ofTokens? (by decide)
  exact ⟨[g], readAll_eq_ok.mpr (.cons ⟨_, htokens, hg⟩ .nil)⟩

/-- The star stands for two segments. -/
theorem fitsInStretches_nested : FitsInStretches starred nested.text := by
  refine ⟨[[], ['p'], ['a', '/', 'b', '.', 't', 's']], rfl, .cons rfl (.cons ?_ (.cons ?_ .nil))⟩
  · exact ⟨['p'], [], rfl, rfl, rfl⟩
  · exact ⟨['a', '/', 'b'], ['.', 't', 's'], rfl, nofun, ['.'], ['t', 's'], rfl, rfl,
      ['t'], ['s'], rfl, rfl, ['s'], [], rfl, rfl, rfl⟩

/-- A star in front of an ending covers a file in a directory below. -/
theorem covers_iff_fits_nested : (∀ source ∈ [starred], IsSimple source) ∧
    ∃ globs, readAll false [starred] = .ok globs ∧ covers globs nested = true := by
  obtain ⟨globs, hglobs⟩ := exists_readAll_starred
  refine ⟨isSimple_starred, globs, hglobs, ?_⟩
  refine (covers_iff_fits isSimple_starred hglobs nested).1.mpr ?_
  exact ⟨starred, List.mem_singleton_self _, nested, by decide, .inr (by decide),
    .inr ⟨by decide, fitsInStretches_nested⟩⟩

/-- Neither the file nor a directory around it fits segment by segment. -/
theorem not_fitsBySegment_nested : ∀ q ∈ nested.ancestors, ¬FitsBySegment starred q.text := by
  have hancestors : nested.ancestors = [nested, ⟨['/', 'p', '/', 'a']⟩, ⟨['/', 'p']⟩, ⟨['/']⟩] := by
    decide
  rw [hancestors]
  intro q hq hfits
  have hlength := hfits.length_eq
  simp only [List.mem_cons, List.not_mem_nil, or_false] at hq
  obtain rfl | rfl | rfl | rfl := hq
  · cases hlength
  · -- the only directory with as many segments has no dot in its name
    obtain ⟨-, hrest⟩ := List.forall₂_cons.mp hfits
    obtain ⟨-, hlast⟩ := List.forall₂_cons.mp hrest
    obtain ⟨⟨a, v, hname, -, dot, w, rfl, rfl, -⟩, -⟩ := List.forall₂_cons.mp hlast
    have hdot : '.' ∈ byteText ['a'] := by
      rw [hname]
      exact List.mem_append_right a (List.mem_append_left w (by decide))
    exact absurd hdot (by decide)
  · cases hlength
  · cases hlength

/-- What a star covers need not have as many segments as the glob. -/
theorem not_always_by_segment : ¬∀ sources globs file, (∀ source ∈ sources, IsSimple source) →
    readAll false sources = .ok globs → covers globs file = true →
      ∃ source ∈ sources, ∃ q ∈ file.ancestors, FitsBySegment source q.text := by
  intro h
  obtain ⟨globs, hglobs⟩ := exists_readAll_starred
  have hmem : starred ∈ [starred] := List.mem_singleton_self _
  have hspells := (wildcardSpells_iff_fitsInStretches _ _).mpr fitsInStretches_nested
  have hcovers : covers globs nested = true := by
    refine (covers_iff hglobs nested).mpr ⟨starred, hmem, nested, by decide, ?_⟩
    exact (exists_reads_iff hglobs hmem (isSimple_starred _ hmem) _).mpr ⟨.inr (by decide), hspells⟩
  obtain ⟨source, hsource, q, hq, hfits⟩ := h [starred] globs nested isSimple_starred hglobs hcovers
  obtain rfl := List.mem_singleton.mp hsource
  exact not_fitsBySegment_nested q hq hfits

end InputFiles
end TestTransform

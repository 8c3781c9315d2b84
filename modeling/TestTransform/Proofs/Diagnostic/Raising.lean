/-
Which diagnostics are raised.

The policy for a setting keeps the ignored codes in order and searches them by halves.  That comes
to asking whether a code is one of those that are never reported, of those of the environment, or
of those that the setting lists in any form.  What is left of the diagnostics of a file fails the
compilation or is handed on as warnings, and nothing else happens.
-/
import TestTransform.Compiler.Surroundings
import TestTransform.Proofs.Config.Alike
import TestTransform.Proofs.Except
import TestTransform.Proofs.Order.Sorting

namespace TestTransform

/-! ## What a setting says -/

/-- Whether an item lists a code, alone or among others. -/
def CodeItem.lists (code : Nat) : CodeItem → Bool
  | .number n => n == code
  | .text t => (Text.splitOn ',' t).any fun piece =>
      !(Text.trim piece).isEmpty && (Diagnostic.Code.parse piece).toOption == some code

namespace DiagnosticsSetting

/-- Whether a code is to be ignored by a setting. -/
def lists (code : Nat) : DiagnosticsSetting → Bool
  | .toggle _ => false
  | .options o => o.ignoreCodes.any fun l => l.items.any (CodeItem.lists code)

/-- Whether diagnostics of a file are wanted by a setting. -/
def wants (file : Path) : DiagnosticsSetting → Bool
  | .toggle on => on
  | .options o => o.pathRegex.all fun t => (Pattern.ofText? t).any fun p => p.isMatch file.text

/-- Whether errors and warnings fail a compilation by a setting. -/
def fails : DiagnosticsSetting → Bool
  | .toggle on => on
  | .options o => !o.warnOnly

/-- Whether a diagnostic remains: its code is not ignored by anyone, and its own file, if it has
one, is wanted. -/
def remains (setting : Option DiagnosticsSetting) (envCodes : List Nat) (d : Diagnostic) : Bool :=
  !([6059, 18002, 18003].contains d.code || envCodes.contains d.code ||
      setting.any (lists d.code)) &&
    d.file.all fun file => setting.all (wants file)

/-- What remains of the diagnostics of a file, in order. -/
def remaining (setting : Option DiagnosticsSetting) (envCodes : List Nat) (ds : List Diagnostic) :
    List Diagnostic := ds.filter (remains setting envCodes)

end DiagnosticsSetting

/-! ## Codes -/

theorem CodeItem.mem_codes {item : CodeItem} {codes : List Nat} (h : item.codes = .ok codes)
    (code : Nat) : code ∈ codes ↔ item.lists code = true := by
  cases item with
  | number n =>
    cases h
    rw [List.mem_singleton, lists, beq_iff_eq, eq_comm]
  | text t =>
    have hparse : ∀ piece, Diagnostic.Code.parse piece = .ok code ↔
        (Diagnostic.Code.parse piece).toOption = some code := by
      intro piece
      cases Diagnostic.Code.parse piece <;> simp [Except.toOption]
    rw [CodeItem.codes, Diagnostic.Code.parseList] at h
    rw [(Except.mem_of_mapM_eq_ok h).1, lists, List.any_eq_true]
    simp only [List.mem_filter, and_assoc, hparse]
    simp

theorem CodeList.mem_codes {l : CodeList} {codes : List Nat} (h : l.codes = .ok codes)
    (code : Nat) : code ∈ codes ↔ l.items.any (CodeItem.lists code) = true := by
  rw [CodeList.codes] at h
  cases hlists : l.items.mapM CodeItem.codes with
  | error e =>
    rw [hlists] at h
    cases h
  | ok lists =>
    rw [hlists] at h
    cases h
    rw [List.mem_flatten, List.any_eq_true]
    obtain ⟨hmem, hall⟩ := Except.mem_of_mapM_eq_ok hlists
    constructor
    · rintro ⟨cs, hcs, hcode⟩
      obtain ⟨item, hitem, heq⟩ := (hmem cs).mp hcs
      exact ⟨item, hitem, (CodeItem.mem_codes heq code).mp hcode⟩
    · rintro ⟨item, hitem, hcode⟩
      obtain ⟨cs, hcs, heq⟩ := hall item hitem
      exact ⟨cs, hcs, (CodeItem.mem_codes heq code).mpr hcode⟩

/-! ## The policy for a setting -/

theorem SourcePattern.occursIn_of_readOption {option : PatternOption} {t : Option Text}
    {x : Option SourcePattern} (h : readOption option t = .ok x) (file : Path) :
    x.all (·.occursIn file) =
      t.all fun t => (Pattern.ofText? t).any fun p => p.isMatch file.text := by
  cases t with
  | none =>
    cases h
    rfl
  | some t =>
    rw [readOption, read] at h
    cases hp : Pattern.ofText? t with
    | none =>
      rw [hp] at h
      cases h
    | some p =>
      rw [hp] at h
      cases h
      simp [hp, occursIn]

namespace DiagnosticsPolicy

open DiagnosticsSetting

/-- Whether a policy does what a setting says, with some codes of the environment. -/
structure Follows (p : DiagnosticsPolicy) (setting : Option DiagnosticsSetting)
    (envCodes : List Nat) : Prop where
  throws : p.throws = setting.all fails
  reports : ∀ file, p.shouldReport file = setting.all (wants file)
  rising : p.ignoreCodes.Pairwise fun a b => compare a b = .lt
  ignores : ∀ code, code ∈ p.ignoreCodes ↔
    (code ∈ [6059, 18002, 18003] ∨ code ∈ envCodes) ∨ setting.any (lists code) = true

variable {p : DiagnosticsPolicy} {setting : Option DiagnosticsSetting} {envCodes : List Nat}

theorem sortCodes_rising (codes : List Nat) :
    (sortCodes codes).Pairwise fun a b => compare a b = .lt :=
  Sorted.distinct_rising codes

theorem mem_sortCodes {code : Nat} {codes : List Nat} : code ∈ sortCodes codes ↔ code ∈ codes :=
  Sorted.mem_distinct

theorem mem_ownCodes {o : DiagnosticsOptions} {own : List Nat} (h : ownCodes o = .ok own)
    (code : Nat) : code ∈ own ↔ (DiagnosticsSetting.options o).lists code = true := by
  rw [ownCodes] at h
  rw [lists]
  cases hl : o.ignoreCodes with
  | none =>
    rw [hl] at h
    cases h
    simp
  | some l =>
    rw [hl] at h
    exact CodeList.mem_codes (Except.mapError_eq_ok.mp h) code

theorem follows_of_ofSetting (h : ofSetting setting envCodes = .ok p) :
    p.Follows setting envCodes := by
  have hbuiltIn : ∀ code, code ∈ sortCodes (alwaysIgnored ++ envCodes) ↔
      (code ∈ [6059, 18002, 18003] ∨ code ∈ envCodes) ∨ false = true := by
    intro code
    rw [mem_sortCodes, List.mem_append, alwaysIgnored]
    simp only [Bool.false_eq_true, or_false]
  rcases setting with _ | (on | o)
  · cases h
    exact ⟨rfl, fun _ => rfl, sortCodes_rising _, hbuiltIn⟩
  · cases on <;> cases h <;> exact ⟨rfl, fun _ => rfl, sortCodes_rising _, hbuiltIn⟩
  · rw [ofSetting_options] at h
    simp only [Except.bind_eq_ok] at h
    obtain ⟨own, hown, pathRegex, hread, h⟩ := h
    cases h
    refine ⟨rfl, fun file => ?_, sortCodes_rising _, fun code => ?_⟩
    · rw [Option.all_some, wants, ← SourcePattern.occursIn_of_readOption hread file, shouldReport]
      cases pathRegex <;> rfl
    · rw [mem_sortCodes, List.mem_append, List.mem_append, mem_ownCodes hown]
      rfl

/-- The search by halves comes to asking for the codes one after another. -/
theorem Follows.keeps_eq (h : p.Follows setting envCodes) (d : Diagnostic) :
    p.keeps d = remains setting envCodes d := by
  have hignored : Sorted.search compare d.code p.ignoreCodes =
      ([6059, 18002, 18003].contains d.code || envCodes.contains d.code ||
        setting.any (lists d.code)) := by
    rw [Bool.eq_iff_iff, Sorted.search_iff h.rising, h.ignores, Bool.or_eq_true, Bool.or_eq_true,
      List.contains_iff_mem, List.contains_iff_mem]
  rw [keeps, remains, hignored]
  cases d.file with
  | none => rfl
  | some file => rw [Option.all_some, ← h.reports]

end DiagnosticsPolicy

/-! ## Raising -/

section Raising

open DiagnosticsSetting

variable {setting : Option DiagnosticsSetting} {envCodes : List Nat} {config : ConfigSet}

theorem Diagnostic.isImportant_iff {d : Diagnostic} :
    d.isImportant = true ↔ d.category = .error ∨ d.category = .warning := by
  rw [isImportant, Bool.or_eq_true, beq_iff_eq, beq_iff_eq]

theorem ConfigSet.judge_by_setting
    (h : DiagnosticsPolicy.ofSetting setting envCodes = .ok config.diagnostics)
    (ds : List Diagnostic) (file : Path) :
    config.judge ds file =
      if setting.all (wants file) then
        if setting.all fails ∧ ∃ d ∈ remaining setting envCodes ds, d.isImportant then
          .error ((remaining setting envCodes ds).filter Diagnostic.isImportant)
        else .ok ((remaining setting envCodes ds).map fun d => { d with category := .warning })
      else .ok [] := by
  have hfollows := DiagnosticsPolicy.follows_of_ofSetting h
  have hfilter : config.diagnostics.filter ds = remaining setting envCodes ds :=
    List.filter_congr fun d _ => hfollows.keeps_eq d
  have himportant : (!((remaining setting envCodes ds).filter Diagnostic.isImportant).isEmpty) =
      true ↔ ∃ d ∈ remaining setting envCodes ds, d.isImportant := by
    rw [Bool.not_eq_true', ← Bool.not_eq_true, List.isEmpty_iff, List.filter_eq_nil_iff]
    push Not
    rfl
  simp only [judge, shouldReport, hfollows.reports, hfollows.throws, hfilter, Bool.and_eq_true,
    himportant]
  cases setting.all (wants file) <;> rfl

/-- What becomes of the diagnostics of a file: with an error or a warning among those that remain,
the compilation fails with the codes of these and nothing is handed on, unless the setting is
otherwise.  Else those that remain are handed on as warnings. -/
theorem Surroundings.raise_by_setting
    (h : DiagnosticsPolicy.ofSetting setting envCodes = .ok config.diagnostics)
    (w : Surroundings) (ds : List Diagnostic) (file : Path) :
    ((∃ e, (w.raise config ds file).1 = .error e) ↔
      setting.all (wants file) = true ∧ setting.all fails = true ∧
        ∃ d ∈ remaining setting envCodes ds, d.category = .error ∨ d.category = .warning) ∧
    (∀ e, (w.raise config ds file).1 = .error e → (w.raise config ds file).2 = w ∧
      ∃ shown, e = .diagnostics shown (((remaining setting envCodes ds).filter fun d =>
        d.category == .error || d.category == .warning).map (·.code))) ∧
    ((w.raise config ds file).1 = .ok () → (w.raise config ds file).2 = { w with
      reported := w.reported ++ if setting.all (wants file) then
        (remaining setting envCodes ds).map fun d => { d with category := .warning }
      else [] }) := by
  have hjudge := config.judge_by_setting h ds file
  simp only [Diagnostic.isImportant_iff] at hjudge
  by_cases hwants : setting.all (wants file) = true
  · rw [if_pos hwants] at hjudge
    by_cases hfails : setting.all fails = true ∧
        ∃ d ∈ remaining setting envCodes ds, d.category = .error ∨ d.category = .warning
    · rw [if_pos hfails] at hjudge
      simp only [raise, hjudge]
      refine ⟨⟨fun _ => ⟨hwants, hfails⟩, fun _ => ⟨_, rfl⟩⟩, fun e he => ?_, nofun⟩
      cases he
      exact ⟨trivial, _, rfl⟩
    · rw [if_neg hfails] at hjudge
      simp only [raise, hjudge]
      refine ⟨⟨nofun, fun hfailed => absurd hfailed.2 hfails⟩, nofun, fun _ => ?_⟩
      rw [if_pos hwants]
  · rw [if_neg hwants] at hjudge
    simp only [raise, hjudge]
    refine ⟨⟨nofun, fun hfailed => absurd hfailed.1 hwants⟩, nofun, fun _ => ?_⟩
    rw [if_neg hwants]

end Raising

/-! ## A setting that lists codes -/

namespace Ignoring

/-- A setting that lists codes in two forms, one of them twice. -/
def setting : DiagnosticsSetting :=
  .options { ignoreCodes := some (.many [.text "TS2322, 7006", .number 2322]) }

/-- The codes of the environment, out of order. -/
def envCodes : List Nat := [6133, 2304, 2322]

def config : ConfigSet :=
  { (default : ConfigSet) with
    diagnostics := { ignoreCodes := [2304, 2322, 6059, 6133, 7006, 18002, 18003] } }

/-- Diagnostics two of which remain, the first of them no error. -/
def raised : List Diagnostic :=
  [.error 2304 "ignored", { category := .suggestion, code := 80001, message := "kept" },
    .error 7006 "ignored", .error 2345 "kept"]

def file : Path := Path.ofString "/p/a.ts"

theorem wasSet : DiagnosticsPolicy.ofSetting (some setting) envCodes = .ok config.diagnostics := by
  rfl

end Ignoring

open Ignoring in
theorem Surroundings.raise_by_setting_ignoring :
    DiagnosticsPolicy.ofSetting (some setting) envCodes = .ok config.diagnostics ∧
      ∃ shown, ((default : Surroundings).raise config raised file).1 =
        .error (.diagnostics shown [2345]) := by
  obtain ⟨hiff, herror, -⟩ := Surroundings.raise_by_setting wasSet default raised file
  obtain ⟨e, he⟩ := hiff.mpr ⟨by decide, by decide, .error 2345 "kept", by decide, by decide⟩
  obtain ⟨-, shown, rfl⟩ := herror e he
  exact ⟨wasSet, shown, he⟩

end TestTransform

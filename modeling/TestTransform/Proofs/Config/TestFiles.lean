/-
Which files are tests.

An answer is remembered under the path it is for, and equal paths share their answers, while
globs and patterns see how a path is spelled.  So the answer to a question is the one for the
spelling that was asked first.

A glob that begins with the token of the root directory is read after the directory was put in
its place.  As long as the directory means nothing but itself in a glob, the rest of the glob
matches what stands behind the directory.
-/
import Mathlib.Data.List.Induction
import TestTransform.Config.Set
import TestTransform.Files.Store
import TestTransform.Proofs.Config.Build
import TestTransform.Proofs.Glob.Leading
import TestTransform.Proofs.Order.Lookup
import TestTransform.Proofs.Path.Below

namespace TestTransform

/-! ## Remembered answers -/

namespace Memo

variable {κ υ : Type} {cmp : κ → κ → Ordering}

/-- The memory after some keys were asked for, one after another. -/
def afterAsking (cmp : κ → κ → Ordering) (compute : κ → υ) (asked : List κ) : Memo κ υ :=
  asked.foldl (fun m k => (m.ask cmp compute k).2) {}

/-- What is remembered after a question: what was remembered before it, or its own answer. -/
theorem find?_ask [Std.TransCmp cmp] (compute : κ → υ) (m : Memo κ υ) (k k' : κ) :
    Assoc.find? cmp k' (m.ask cmp compute k).2.entries =
      (Assoc.find? cmp k' m.entries).or
        (if cmp k' k = .eq then some (compute k) else none) := by
  by_cases heq : cmp k' k = .eq
  · rw [if_pos heq, Assoc.find?_congr heq, Assoc.find?_congr heq, ask]
    cases hfind : Assoc.find? cmp k m.entries with
    | some v => rw [hfind]; rfl
    | none => exact Assoc.find?_insert_self k _ _
  · rw [if_neg heq, Option.or_none, ask]
    cases Assoc.find? cmp k m.entries with
    | some v => rfl
    | none => exact Assoc.find?_insert_of_ne heq _ _

/-- What is remembered is the answer for the equal key that was asked for first. -/
theorem find?_afterAsking [Std.TransCmp cmp] (compute : κ → υ) (asked : List κ) (k : κ) :
    Assoc.find? cmp k (afterAsking cmp compute asked).entries =
      (asked.find? fun k' => cmp k k' = .eq).map compute := by
  induction asked using List.reverseRecOn with
  | nil => rfl
  | append_singleton asked k' ih =>
    rw [afterAsking, List.foldl_append, ← afterAsking, List.foldl_cons, List.foldl_nil, find?_ask,
      ih, List.find?_append, Option.map_or]
    by_cases heq : cmp k k' = .eq <;> simp [heq]

/-- An answer is that for the equal key that was asked for first. -/
theorem ask_afterAsking [Std.TransCmp cmp] (compute : κ → υ) (asked : List κ) (k : κ) :
    ((afterAsking cmp compute asked).ask cmp compute k).1 =
      compute ((asked.find? fun k' => cmp k k' = .eq).getD k) := by
  rw [ask, find?_afterAsking]
  cases asked.find? fun k' => cmp k k' = .eq <;> rfl

end Memo

namespace TestMatcher

/-- The memory after questions about some paths. -/
def memoryOf (m : TestMatcher) (asked : List Path) : TestMemo :=
  Memo.afterAsking Path.cmp m.isMatch asked

/-- The spelling of a path that was asked about first. -/
def firstSpelling (asked : List Path) (p : Path) : Path := (asked.find? p.same).getD p

theorem isTest_memoryOf (m : TestMatcher) (asked : List Path) (p : Path) :
    (m.isTest (m.memoryOf asked) p).1 = m.isMatch (firstSpelling asked p) := by
  have hsame : (fun q => decide (Path.cmp p q = .eq)) = p.same := by
    funext q
    rw [Bool.eq_iff_iff, decide_eq_true_iff, Path.cmp_eq_iff_same]
  rw [isTest, memoryOf, Memo.ask_afterAsking, hsame, firstSpelling]

theorem isTest_empty (m : TestMatcher) (p : Path) : (m.isTest {} p).1 = m.isMatch p :=
  m.isTest_memoryOf [] p

theorem firstSpelling_same (asked : List Path) (p : Path) :
    p.same (firstSpelling asked p) = true := by
  rw [firstSpelling]
  cases h : asked.find? p.same with
  | none => exact Path.same_refl p
  | some q => exact List.find?_some h

theorem firstSpelling_mem (asked : List Path) (p : Path) :
    firstSpelling asked p ∈ asked ∨ firstSpelling asked p = p := by
  rw [firstSpelling]
  cases h : asked.find? p.same with
  | none => exact .inr rfl
  | some q => exact .inl (List.mem_of_find?_eq_some h)

/-- How the answers of a matcher depend on the questions before. -/
structure Remembers (m : TestMatcher) : Prop where
  /-- An answer is that of the spelling asked first. -/
  spelling : ∀ asked p, (m.isTest (m.memoryOf asked) p).1 = m.isMatch (firstSpelling asked p)
  /-- Among paths in normal form the questions before make no difference. -/
  normal : ∀ asked p, (∀ q ∈ asked, q.normalize = q) → p.normalize = p →
    (m.isTest (m.memoryOf asked) p).1 = m.isMatch p
  /-- They never do exactly if no matching depends on how a path is spelled. -/
  transparent : (∀ asked p, (m.isTest (m.memoryOf asked) p).1 = m.isMatch p) ↔
    ∀ p q, p.same q = true → m.isMatch p = m.isMatch q

end TestMatcher

/-- The answers of a set are those for the spellings that were asked about first. -/
theorem ConfigSet.remembers (c : ConfigSet) : c.tests.Remembers where
  spelling := c.tests.isTest_memoryOf
  normal asked p hasked hp := by
    rw [c.tests.isTest_memoryOf]
    obtain hmem | heq := TestMatcher.firstSpelling_mem asked p
    · have hnormal := Path.normalize_congr (TestMatcher.firstSpelling_same asked p)
      rw [hp, hasked _ hmem] at hnormal
      rw [← hnormal]
    · rw [heq]
  transparent := by
    constructor
    · intro h p q hsame
      have hq := h [p] q
      rw [c.tests.isTest_memoryOf, TestMatcher.firstSpelling, List.find?_cons_of_pos] at hq
      · exact hq
      · rw [Path.same_comm, hsame]
    · intro h asked p
      rw [c.tests.isTest_memoryOf]
      exact (h p _ (TestMatcher.firstSpelling_same asked p)).symm

namespace TwoSpellings

def registry : CompilerRegistry :=
  ({} : CompilerRegistry).register CompilerRegistry.defaultName ⟨0, "5"⟩

def host : HostConfig where
  rootDir := Path.ofString "/project"

def set? : Option ConfigSet := (ConfigSet.build ({} : Disk).view registry [] host).toOption

def withSlash : Path := Path.ofString "/project/a.test.ts/"

def withoutSlash : Path := Path.ofString "/project/a.test.ts"

/-- The answer for a path after it was asked about with a slash at its end, and what the globs
say about it. -/
theorem answers : set?.map (fun c => ((c.tests.isTest (c.tests.memoryOf [withSlash]) withoutSlash).1,
    c.tests.isMatch withoutSlash)) = some (false, true) := by decide +kernel

end TwoSpellings

/-- The default globs take a path for a test, but not after they were asked about the same path with
a slash at its end. -/
theorem ConfigSet.not_always_by_matching : ¬ ∀ view registry codes host c,
    ConfigSet.build view registry codes host = .ok c → ∀ asked p,
      (c.tests.isTest (c.tests.memoryOf asked) p).1 = c.tests.isMatch p := by
  intro h
  have hanswers := TwoSpellings.answers
  rw [TwoSpellings.set?] at hanswers
  cases hbuild : ConfigSet.build ({} : Disk).view TwoSpellings.registry [] TwoSpellings.host with
  | error e =>
    rw [hbuild] at hanswers
    cases hanswers
  | ok c =>
    rw [hbuild] at hanswers
    have hsame := h _ _ _ _ c hbuild [TwoSpellings.withSlash] TwoSpellings.withoutSlash
    obtain ⟨hleft, hright⟩ := Prod.mk.inj (Option.some.inj hanswers)
    rw [hleft, hright] at hsame
    cases hsame

/-! ## A token in front of a text -/

namespace Text

attribute [local simp] splitOnText.go in
theorem splitOnText_go_ne_nil (sep : Text) (skip : Nat) (t : Text) :
    splitOnText.go sep skip t ≠ [] := by
  induction t generalizing skip with
  | nil => simp
  | cons c t ih =>
    cases skip with
    | succ skip => exact ih skip
    | zero =>
      rw [splitOnText.go]
      split
      · exact List.cons_ne_nil _ _
      · split <;> exact List.cons_ne_nil _ _

theorem splitOnText_go_skip (sep s t : Text) :
    splitOnText.go sep s.length (s ++ t) = splitOnText.go sep 0 t := by
  induction s with
  | nil => rfl
  | cons c s ih => exact ih

/-- What stands in front is replaced first. -/
theorem replace_append {old : Text} (hne : old ≠ []) (new t : Text) :
    replace old new (old ++ t) = new ++ replace old new t := by
  obtain ⟨c, s, rfl⟩ := List.exists_cons_of_ne_nil hne
  have hstart : startsWith (c :: (s ++ t)) (c :: s) = true := startsWith_iff.mpr ⟨t, rfl⟩
  have hsplit : splitOnText (c :: s) (c :: s ++ t) = [] :: splitOnText (c :: s) t := by
    rw [splitOnText, List.cons_append, splitOnText.go, hstart, List.isEmpty_cons, Bool.not_false,
      Bool.and_true, if_pos rfl, List.length_cons, Nat.add_sub_cancel, splitOnText_go_skip,
      splitOnText]
  have hpieces : splitOnText (c :: s) t ≠ [] := splitOnText_go_ne_nil _ 0 t
  rw [replace, hsplit, join_cons_of_ne hpieces, List.nil_append, replace]

/-- A character at which the old text does not begin stays. -/
theorem replace_cons {old : Text} {c : Char} {t : Text} (h : startsWith (c :: t) old = false)
    (new : Text) : replace old new (c :: t) = c :: replace old new t := by
  rw [replace, replace, splitOnText, splitOnText, splitOnText.go, h, Bool.and_false,
    if_neg Bool.noConfusion]
  cases hgo : splitOnText.go old 0 t with
  | nil => exact absurd hgo (splitOnText_go_ne_nil old 0 t)
  | cons piece pieces => cases pieces <;> rfl

end Text

theorem HostConfig.expandRoot_token (h : HostConfig) (t : Text) :
    h.expandRoot (rootDirToken ++ '/' :: t) = h.rootDir.text ++ '/' :: h.expandRoot t := by
  have hslash : Text.startsWith ('/' :: t) rootDirToken = false := rfl
  rw [expandRoot, Text.replace_append (by decide), Text.replace_cons hslash]
  rfl

/-! ## Files below the root directory -/

namespace Path

open Component

/-- What is left of a file behind a directory that it lies below, in text. -/
structure LiesBelow (file dir rel : Path) : Prop where
  text : file.text = dir.text ++ '/' :: rel.text
  named : Glob.isNameless file.text = false

/-- A path that ends with a name does not end in `..`. -/
theorem isNameless_of_isName {name : Text} (h : IsName name) (front : Text) :
    Glob.isNameless (front ++ '/' :: name) = false := by
  obtain ⟨hnil, -, hparent, hslash⟩ := h
  have hreverse : (front ++ '/' :: name).reverse = name.reverse ++ '/' :: front.reverse := by
    rw [List.reverse_append, List.reverse_cons, List.append_assoc]
    rfl
  rw [Glob.isNameless, hreverse]
  split
  · rename_i rest heq
    rcases hname : name.reverse with _ | ⟨c, _ | ⟨d, more⟩⟩
    · exact absurd (List.reverse_eq_nil_iff.mp hname) hnil
    · rw [hname] at heq
      exact absurd (List.cons.inj (List.cons.inj heq).2).1 (by decide)
    · rw [hname] at heq
      obtain ⟨rfl, hdots⟩ := List.cons.inj heq
      obtain ⟨rfl, rfl⟩ := List.cons.inj hdots
      cases more with
      | nil => exact absurd (List.reverse_eq_iff.mp hname) hparent
      | cons e more =>
        have he : e ∈ name := by
          rw [← List.mem_reverse, hname]
          simp
        have hne : e ≠ '/' := fun heq => hslash (heq ▸ he)
        simpa using hne
  · rfl

/-- Below the first component there are only names. -/
theorem IsRooted.exists_name {c : Component} {stack : List Component} (h : IsRooted (c :: stack))
    (hne : stack ≠ []) : ∃ name, c = .normal name ∧ IsName name := by
  obtain ⟨names, ups, heq, hnames, hups⟩ := h
  cases names with
  | nil =>
    obtain rfl | rfl := hups
    · cases heq
    · exact absurd (List.cons.inj heq).2 hne
  | cons name names => exact ⟨name, (List.cons.inj heq).1, hnames name List.mem_cons_self⟩

/-- A file in normal form below a directory other than the root. -/
theorem IsSettled.liesBelow {file dir rel : Path} (hfile : file.IsSettled) (hdir : dir.IsSettled)
    (hroot : dir.components ≠ [.root]) (hrel : file.relativeTo? dir = some rel)
    (hne : rel.text ≠ []) : LiesBelow file dir rel := by
  obtain ⟨stack, hstack, rfl⟩ := hfile.exists_rooted
  obtain ⟨dirs, hdirs, rfl⟩ := hdir.exists_rooted
  have hbelow : (rooted dirs).components <+: (rooted stack).components := by
    rw [← isBelow_iff]
    by_contra hnot
    rw [relativeTo?, if_neg hnot] at hrel
    cases hrel
  rw [components_rooted hdirs, components_rooted hstack, List.cons_prefix_cons] at hbelow
  obtain ⟨-, below, hsplit⟩ := hbelow
  have hrest := relativeTo?_rooted hstack hsplit.symm (components_rooted hdirs)
  obtain rfl : ofComponents below = rel := Option.some.inj (hrest.symm.trans hrel)
  have hdirsne : dirs ≠ [] := fun heq => hroot (by rw [heq]; rfl)
  refine ⟨?_, ?_⟩
  · cases below with
    | nil => exact absurd rfl hne
    | cons c below =>
      have hc : c ≠ .root := by
        rintro rfl
        exact hstack.step .root (List.mem_reverse.mp (hsplit ▸ by simp))
      have hrel : ofComponents (c :: below) =
          ⟨Text.join "/" ((c :: below).map Component.text)⟩ := by
        rw [ofComponents]
        exact fun _ heq => hc (List.cons.inj heq).1
      rw [rooted, ← hsplit, text_ofComponents_root (List.reverse_ne_nil_iff.mpr hdirsne)
        (List.cons_ne_nil c below), hrel]
      rfl
  · have hstackeq : stack = below.reverse ++ dirs := by
      rw [← List.reverse_reverse stack, ← hsplit, List.reverse_append, List.reverse_reverse]
    cases hlast : below.reverse with
    | nil =>
      rw [List.reverse_eq_nil_iff.mp hlast] at hne
      exact absurd rfl hne
    | cons c more =>
      rw [hlast] at hstackeq
      subst hstackeq
      have htail : more ++ dirs ≠ [] := List.append_ne_nil_of_right_ne_nil more hdirsne
      obtain ⟨name, rfl, hname⟩ := hstack.exists_name htail
      rw [List.cons_append, text_rooted_cons _ htail]
      exact isNameless_of_isName hname _

end Path

namespace TestMatcher

open HostConfig (rootDirToken)

section

variable {h : HostConfig} {glob : Text}

/-- The matcher of one glob. -/
def single (g : Glob) (source : Text) : TestMatcher :=
  { globs := [g], patterns := [source], regexes := [] }

theorem isTest_single (g : Glob) (source : Text) (p : Path) :
    ((single g source).isTest {} p).1 = g.isMatch p.text := by
  rw [isTest_empty]
  simp [isMatch, Glob.anyMatch, single]

/-- With one glob and no patterns, the matcher of a host is that of the glob, if it is one. -/
theorem ofHost_eq (hmatch : h.testMatch = [glob]) (hregex : h.testRegexes = []) :
    ofHost h = match (Glob.tokens? (h.expandRoot glob)).bind (Glob.ofTokens? true) with
      | some g => .ok (single g (h.expandRoot glob))
      | none => .error (.invalidGlob (h.expandRoot glob)) := by
  have hpatterns : patternsOf h = [h.expandRoot glob] := by
    rw [patternsOf, hmatch]
    rfl
  rw [ofHost, hpatterns, hregex, Glob.readAll, List.mapM_cons, List.mapM_nil]
  cases htokens : Glob.tokens? (h.expandRoot glob) with
  | none => rfl
  | some tokens =>
    simp only [Option.bind_some]
    cases hg : Glob.ofTokens? true tokens with
    | none =>
      simp only [bind, Except.bind, pure, Except.pure, List.mapM_cons, hg]
      rfl
    | some g =>
      simp only [bind, Except.bind, pure, Except.pure, List.mapM_cons, hg]
      rfl

/-- What a matcher takes for tests below a directory: what a glob matches. -/
structure MatchesBelow (m : TestMatcher) (dir : Path) (g : Glob) : Prop where
  /-- The directory and a slash may be followed by any text. -/
  spelled : ∀ (p : Path) (rel : Text), p.text = dir.text ++ '/' :: rel →
    Glob.isNameless p.text = false → (m.isTest {} p).1 = g.isMatch rel
  /-- In normal form, what is matched is the path relative to the directory. -/
  settled : ∀ p rel : Path, p.IsSettled → p.relativeTo? dir = some rel → rel.text ≠ [] →
    (m.isTest {} p).1 = g.isMatch rel.text

/-- What the glob behind the token of the root directory makes of a host: a matcher for the files
below the directory, or the error that names it. -/
structure ReadsBelow (h : HostConfig) (glob : Text) : Prop where
  matched : ∀ g, Glob.Reads true (h.expandRoot glob) g → ∃ m, ofHost h = .ok m ∧
    m.MatchesBelow h.rootDir g ∧
    ∀ view registry codes c, ConfigSet.build view registry codes h = .ok c → c.tests = m
  refused : (∀ g, ¬ Glob.Reads true (h.expandRoot glob) g) →
    ofHost h = .error (.invalidGlob (h.rootDir.text ++ '/' :: h.expandRoot glob))

theorem reads_iff {separated : Bool} {source : Text} {g : Glob} :
    Glob.Reads separated source g ↔
      (Glob.tokens? source).bind (Glob.ofTokens? separated) = some g := by
  rw [Option.bind_eq_some_iff]
  rfl

/-- A glob behind the token of the root directory matches what stands behind the directory, if no
character of the directory has a meaning in globs. -/
theorem readsBelow (hmatch : h.testMatch = [rootDirToken ++ '/' :: glob])
    (hregex : h.testRegexes = []) (hroot : h.rootDir.IsSettled)
    (hne : h.rootDir.components ≠ [.root]) (hliteral : ∀ c ∈ h.rootDir.text, Glob.IsLiteral c)
    (hall : Glob.tokens? (h.expandRoot glob) = some [.recursivePrefix] →
      (h.expandRoot glob).getLast? = some '*') : ReadsBelow h glob := by
  have hhost := ofHost_eq hmatch hregex
  have hled := @Glob.reads_led _ true hliteral _ hall
  rw [h.expandRoot_token] at hhost
  generalize (Glob.tokens? (h.rootDir.text ++ '/' :: h.expandRoot glob)).bind
    (Glob.ofTokens? true) = read at hled hhost
  refine ⟨fun g hg => ?_, fun hnone => ?_⟩
  · rw [reads_iff.mp hg] at hled
    cases hled with
    | @some _ g' hmatches =>
      have hspelled : ∀ (source : Text) (p : Path) (rel : Text),
          p.text = h.rootDir.text ++ '/' :: rel → Glob.isNameless p.text = false →
          ((single g' source).isTest {} p).1 = g.isMatch rel := by
        intro source p rel hp hname
        rw [isTest_single, hp, hmatches rel (hp ▸ hname)]
      refine ⟨_, hhost, ⟨hspelled _, fun p rel hp hrel hnil => ?_⟩,
        fun view registry codes c hc => ?_⟩
      · have hbelow := hp.liesBelow hroot hne hrel hnil
        exact hspelled _ p rel.text hbelow.text hbelow.named
      · obtain ⟨o, resolved, hbuilt⟩ := ConfigSet.build_eq_ok hc
        exact Except.ok.inj (hbuilt.tests.symm.trans hhost)
  · have hnone : (Glob.tokens? (h.expandRoot glob)).bind (Glob.ofTokens? true) = none :=
      Option.eq_none_iff_forall_ne_some.mpr fun g hg => hnone g (reads_iff.mpr hg)
    rw [hnone] at hled
    cases hled
    exact hhost

end

/-! ### A directory without notation -/

namespace Sources

def glob : Text := "src/**/*.\x7bspec,test\x7d.ts"

def host : HostConfig where
  rootDir := Path.ofString "/project"
  testMatch := [rootDirToken ++ '/' :: glob]

def inside : Path := Path.ofString "/project/src/a/b.spec.ts"

def outside : Path := Path.ofString "/project/a/src/b.spec.ts"

theorem isSettled : host.rootDir.IsSettled ∧ host.rootDir.components ≠ [.root] ∧
    (inside.IsSettled ∧ inside.relativeTo? host.rootDir = some ⟨"src/a/b.spec.ts"⟩) ∧
    outside.IsSettled ∧ outside.relativeTo? host.rootDir = some ⟨"a/src/b.spec.ts"⟩ := by
  decide +kernel

theorem isLiteral_rootDir : ∀ c ∈ host.rootDir.text, Glob.IsLiteral c := by
  have hall : (host.rootDir.text.all fun c => decide (Glob.IsLiteral c)) = true := by decide +kernel
  simpa only [List.all_eq_true, decide_eq_true_eq] using hall

theorem length_tokens : (Glob.tokens? (host.expandRoot glob)).map List.length ≠ some 1 := by
  decide +kernel

/-- The glob matches the one file relative to the directory and not the other. -/
theorem matched : ((Glob.tokens? (host.expandRoot glob)).bind (Glob.ofTokens? true)).map
    (fun g => (g.isMatch "src/a/b.spec.ts", g.isMatch "a/src/b.spec.ts")) = some (true, false) := by
  decide +kernel

end Sources

/-- The files under `src` that a project takes for tests. -/
theorem readsBelow_sources : ∃ m, ofHost Sources.host = .ok m ∧
    (m.isTest {} Sources.inside).1 = true ∧ (m.isTest {} Sources.outside).1 = false := by
  obtain ⟨hroot, hne, ⟨hinsideSettled, hinsideRel⟩, houtsideSettled, houtsideRel⟩ :=
    Sources.isSettled
  have hreads : ReadsBelow Sources.host Sources.glob := by
    refine readsBelow rfl rfl hroot hne Sources.isLiteral_rootDir ?_
    intro htokens
    exact absurd (congrArg (Option.map List.length) htokens) Sources.length_tokens
  have hmatched := Sources.matched
  cases hg : (Glob.tokens? (Sources.host.expandRoot Sources.glob)).bind (Glob.ofTokens? true) with
  | none =>
    rw [hg] at hmatched
    cases hmatched
  | some g =>
    rw [hg] at hmatched
    obtain ⟨hinside, houtside⟩ := Prod.mk.inj (Option.some.inj hmatched)
    obtain ⟨m, hm, hbelow, -⟩ := hreads.matched g (reads_iff.mpr hg)
    refine ⟨m, hm, ?_, ?_⟩
    · rw [← hinside]
      exact hbelow.settled _ _ hinsideSettled hinsideRel (by decide)
    · rw [← houtside]
      exact hbelow.settled _ _ houtsideSettled houtsideRel (by decide)

/-! ### Directories that are read as part of the glob -/

/-- Whether the globs behind the token match what stands behind the directory. -/
def TakesBelow (dir : Path) : Prop :=
  ∀ (h : HostConfig) (glob : Text) (g : Glob) (m : TestMatcher) (p rel : Path), h.rootDir = dir →
    h.testMatch = [rootDirToken ++ '/' :: glob] → h.testRegexes = [] →
    Glob.Reads true (h.expandRoot glob) g → ofHost h = .ok m → p.IsSettled →
    p.relativeTo? dir = some rel → rel.text ≠ [] → (m.isTest {} p).1 = g.isMatch rel.text

namespace Noted

def host (dir : Text) : HostConfig where
  rootDir := ⟨dir⟩
  testMatch := [rootDirToken ++ '/' :: "*.ts"]

/-- A directory whose name has a class in it. -/
def brackets : Text := "/p[1]"

def root : Text := "/"

/-- The answer for a file, and what the glob says about the rest of its path. -/
def answers? (dir : Text) (p : Path) : Option (Bool × Bool) :=
  (ofHost (host dir)).toOption.bind fun m =>
    ((Glob.tokens? ((host dir).expandRoot "*.ts")).bind (Glob.ofTokens? true)).map fun g =>
      ((m.isTest {} p).1, g.isMatch "a.ts")

theorem not_takesBelow {dir : Text} {p : Path} (hanswers : answers? dir p = some (false, true) ∧
    p.IsSettled ∧ p.relativeTo? ⟨dir⟩ = some ⟨"a.ts"⟩) : ¬ TakesBelow ⟨dir⟩ := by
  intro h
  obtain ⟨hanswers, hp, hrel⟩ := hanswers
  rw [answers?, Option.bind_eq_some_iff] at hanswers
  obtain ⟨m, hm, hanswers⟩ := hanswers
  obtain ⟨g, hg, hanswers⟩ := Option.map_eq_some_iff.mp hanswers
  obtain ⟨hleft, hright⟩ := Prod.mk.inj hanswers
  have hhost : ofHost (host dir) = .ok m := by
    cases hof : ofHost (host dir) with
    | error e =>
      rw [hof] at hm
      cases hm
    | ok m' =>
      rw [hof] at hm
      exact congrArg Except.ok (Option.some.inj hm)
  have hsame := h (host dir) "*.ts" g m p ⟨"a.ts"⟩ rfl rfl rfl (reads_iff.mpr hg) hhost hp hrel
    (by decide)
  rw [hleft, hright] at hsame
  cases hsame

end Noted

/-- Brackets in the name of the root directory are read as a class, and behind the root there are
two slashes to match. -/
theorem not_always_below : ¬ TakesBelow ⟨Noted.brackets⟩ ∧ ¬ TakesBelow ⟨Noted.root⟩ :=
  ⟨Noted.not_takesBelow (p := Path.ofString "/p[1]/a.ts") (by decide +kernel),
    Noted.not_takesBelow (p := Path.ofString "/a.ts") (by decide +kernel)⟩

end TestMatcher

end TestTransform

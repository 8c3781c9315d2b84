/-
How fresh the lists of modules are that go into cache keys.

A list is not always one of the files as they are now.  A text that a compiler has read is
kept until the file is passed to a call itself, and a list that was recorded for a content
stands until that content changes.  What holds in every run is that nothing is made up.  Each
text that is kept was on disk when some call of the run was made, or was recorded in the graph
file that the compiler was set up with.  Each list that is recorded was in that file too, or was
made by a call for the same file and content, and then it is exactly what the file reached in
the picture that the compiler had at that call.
-/
import TestTransform.Proofs.Transform.Catalogue

namespace TestTransform

namespace Call

/-- The request that a call passes, if it passes a file. -/
def request? : Call → Option Request
  | configSet _ => none
  | process r _ => some r
  | key r _ => some r

/-- Whether a call is given what is on disk for its file. -/
def IsCurrent (t : Transformer) (w : World) (c : Call) : Prop :=
  ∀ i t', t.find w c.argument = .ok (i, t') → ∀ r ∈ c.request?,
    w.disk.read? ((t'.compiler i).config.rootDir.resolve r.path) = some r.source

end Call

namespace Transformer

/-! ## Runs -/

/-- A call of a run, with the transformer and the world that it is made in. -/
structure Moment where
  transformer : Transformer
  world : World
  call : Call

/-- The runs of one transformer on miniature compilers, with the calls that were made.  Between
two calls anything may change; each call is given what is on disk for its file. -/
inductive Run : List Moment → Transformer → World → Prop where
  | start (registry : CompilerRegistry) (fallback : Option Fallback) {w : World} :
      w.IsMiniature → Run [] { registry, fallback } w
  | change {past : List Moment} {t : Transformer} {w w' : World} :
      Run past t w → w'.IsMiniature → Run past t w'
  | call {past : List Moment} {t : Transformer} {w : World} (c : Call) :
      Run past t w → c.IsCurrent t w →
      Run (past ++ [⟨t, w, c⟩]) (c.after t w).1 (c.after t w).2

namespace Moment

/-- Whether the compiler `i` is set up by the call. -/
def SetsUp (m : Moment) (i : Nat) : Prop :=
  m.transformer.compilers.length = i ∧ ∃ j t,
    m.transformer.find m.world m.call.argument = .ok (j, t) ∧ i < t.compilers.length

/-- Whether the call is about a file with a content, which it has on disk, and is served by the
compiler `i`, which is `c` when it begins. -/
structure IsAbout (m : Moment) (i : Nat) (c : LanguageCompiler) (file : Path) (content : Text) :
    Prop where
  compiler : ∃ t, m.transformer.find m.world m.call.argument = .ok (i, t) ∧
    t.compiler i = .language c
  request : ∃ r ∈ m.call.request?, c.config.rootDir.resolve r.path = file ∧ r.source = content
  onDisk : m.world.disk.read? file = some content

end Moment

/-! ## What a compiler knows -/

/-- Where a compiler can have a text of a file from: from the disk, or from the graph file that
it was set up with. -/
inductive Seen (past : List Moment) (i : Nat) (dir : Option Path) (p : Path) (text : Text) :
    Prop where
  | onDisk {m : Moment} : m ∈ past → m.world.disk.read? p = some text → Seen past i dir p text
  | recorded {m : Moment} {e : GraphEntry} : m ∈ past → m.SetsUp i →
      (GraphCache.openAt m.world.view dir).graph.get? p = some e → e.content = text →
      Seen past i dir p text

/-- The picture that a compiler has of a project when it is shown the content of a file: files
are as they are on disk, except those that it holds a text for. -/
structure Sees (past : List Moment) (i : Nat) (w : World) (c : LanguageCompiler) (file : Path)
    (pic : Picture) : Prop where
  own : pic file = w.disk.picture file
  unheld : ∀ p, p.normalize = p → p ≠ file → c.host.files.text? p = none →
    pic p = w.disk.picture p
  held : ∀ p t, p.normalize = p → p ≠ file → c.host.files.text? p = some t →
    pic p = ⟨some t, true⟩ ∧ Seen past i c.config.cacheDirectory p t

/-- Where a compiler can have an entry of its graph from: from the graph file that it was set up
with, or from a call about this file with this content.  Then the entry lists exactly what the
file reached in the picture that the compiler had. -/
inductive Recorded (past : List Moment) (i : Nat) (dir : Option Path) (p : Path) (e : GraphEntry) :
    Prop where
  | found {m : Moment} : m ∈ past → m.SetsUp i →
      (GraphCache.openAt m.world.view dir).graph.get? p = some e → Recorded past i dir p e
  | listed (before after : List Moment) {m : Moment} {c : LanguageCompiler} {pic : Picture} :
      past = before ++ m :: after → m.IsAbout i c p e.content →
      Sees (before ++ [m]) i m.world c p pic → Closure.IsClosure pic.imports p e.modules →
      Recorded past i dir p e

/-- A compiler that knows nothing but what was there to be seen. -/
structure Known (past : List Moment) (i : Nat) (c : LanguageCompiler) : Prop where
  texts : ∀ p t, p.normalize = p → c.host.files.text? p = some t →
    Seen past i c.config.cacheDirectory p t
  entries : ∀ p e, p.normalize = p → c.graph.graph.get? p = some e →
    Recorded past i c.config.cacheDirectory p e

/-- Whether this holds of all compilers. -/
def Knows (past : List Moment) (t : Transformer) : Prop :=
  ∀ i c, t.compiler i = .language c → Known past i c

variable {past : List Moment} {m : Moment} {t t' : Transformer} {w : World} {i : Nat}
  {c : LanguageCompiler} {file : Path} {content : Text} {dir : Option Path} {p : Path}

theorem Seen.later {text : Text} (h : Seen past i dir p text) (m : Moment) :
    Seen (past ++ [m]) i dir p text := by
  cases h with
  | onDisk hm ht => exact .onDisk (List.mem_append_left _ hm) ht
  | recorded hm hi he ht => exact .recorded (List.mem_append_left _ hm) hi he ht

theorem Recorded.later {e : GraphEntry} (h : Recorded past i dir p e) (m : Moment) :
    Recorded (past ++ [m]) i dir p e := by
  cases h with
  | found hm hi he => exact .found (List.mem_append_left _ hm) hi he
  | listed before after hpast hm hpic hc =>
    refine .listed before (after ++ [m]) ?_ hm hpic hc
    rw [hpast, List.append_assoc, List.cons_append]

theorem Known.later (k : Known past i c) (m : Moment) : Known (past ++ [m]) i c :=
  ⟨fun p t hp h => (k.texts p t hp h).later m, fun p e hp h => (k.entries p e hp h).later m⟩

theorem Knows.later (k : Knows past t) (m : Moment) : Knows (past ++ [m]) t :=
  fun i c hc => (k i c hc).later m

theorem knows_new (registry : CompilerRegistry) (fallback : Option Fallback) :
    Knows past { registry, fallback } := by
  intro i c hc
  cases hc

/-! ## One call -/

/-- The content of an entry was seen as well. -/
theorem Recorded.seen {e : GraphEntry} (h : Recorded past i dir p e) :
    Seen past i dir p e.content := by
  cases h with
  | found hm hi he => exact .recorded hm hi he rfl
  | listed _ _ hpast hm _ _ => exact .onDisk (by rw [hpast]; simp) hm.onDisk

/-- What a compiler sees when the content of the call is shown to it. -/
theorem Known.sees (k : Known past i c) (hf : file.normalize = file)
    (hs : w.disk.read? file = some content) : Sees past i w c file
      (LanguageCompiler.Session.update (c.sessionIn w) file content).picture := by
  have hheld : ∀ p, (LanguageCompiler.Session.update (c.sessionIn w) file content).held? p =
      if p.same file then some content else c.host.files.text? p :=
    fun p => LanguageCompiler.Session.held?_update _ _ _ _
  have hne : ∀ p, p.normalize = p → p ≠ file → ¬ p.same file = true := by
    intro p hp hne hsame
    exact hne (by rw [← hp, Path.normalize_congr hsame, hf])
  constructor
  · rw [LanguageCompiler.Session.picture_eq_of_held hf
      (LanguageCompiler.Session.held?_update_self _ _ _),
      Disk.picture, hs, Disk.hasFile_of_read? hs]
  · intro p hp hpf hp'
    rw [LanguageCompiler.Session.picture_eq_of_not_held hp (by rw [hheld, if_neg (hne p hp hpf), hp'])]
    rfl
  · intro p t hp hpf hp'
    refine ⟨?_, k.texts p t hp hp'⟩
    rw [LanguageCompiler.Session.picture_eq_of_held hp (by rw [hheld, if_neg (hne p hp hpf), hp'])]

/-- What a call keeps: it takes in what is on disk and what was recorded, and lists what it
sees. -/
theorem Known.kept (k : Known (past ++ [m]) i c) (hm : m.IsAbout i c file content)
    (hf : file.normalize = file) : LanguageCompiler.Session.Kept
      (Seen (past ++ [m]) i c.config.cacheDirectory)
      (Recorded (past ++ [m]) i c.config.cacheDirectory) (c.sessionIn m.world) file content :=
  { onDisk := fun _ _ _ h => .onDisk (by simp) h
    recorded := fun _ _ _ h => h.seen
    passed := .onDisk (by simp) hm.onDisk
    found := fun _ hb => .listed past [] rfl hm (k.sees hf hm.onDisk)
      (Closure.ofImports_isClosure hf hb) }

theorem known_of_after {s : LanguageCompiler.Session} (h : LanguageCompiler.Session.After
    (Seen past i c.config.cacheDirectory) (Recorded past i c.config.cacheDirectory)
    (c.sessionIn w) s) : Known past i s.compiler := by
  have hc : s.compiler.config = c.config := h.config
  constructor
  · rw [hc]
    exact h.texts
  · rw [hc]
    exact h.entries

section Session

variable (k : Known (past ++ [m]) i c) (hw : m.world.IsMiniature) (hm : m.IsAbout i c file content)
  (hf : file.normalize = file)
include k hw hm hf

theorem Known.compile (options : TransformOptions) : Known (past ++ [m]) i
    (LanguageCompiler.Session.compile (c.sessionIn m.world) content file options).2.compiler := by
  have hkept := k.kept hm hf
  rw [← hf] at hkept
  exact known_of_after (LanguageCompiler.Session.compile_after hkept (hw _)
    k.texts k.entries options)

theorem Known.resolvedModules : Known (past ++ [m]) i
    (LanguageCompiler.Session.resolvedModules (c.sessionIn m.world) content file).2.compiler := by
  have hkept := k.kept hm hf
  rw [← hf] at hkept
  exact known_of_after (LanguageCompiler.Session.resolvedModules_after hkept (hw _)
    k.texts k.entries)

end Session

theorem knows_setCompiler (k : Knows past t) {c : Compiler}
    (hc : ∀ c', c = .language c' → Known past i c') : Knows past (t.setCompiler i c) := by
  intro j c' hj
  by_cases hij : i = j ∧ i < t.compilers.length
  · obtain ⟨rfl, hi⟩ := hij
    rw [compiler, Transformer.setCompiler, List.getD_eq_getElem?_getD,
      List.getElem?_set_self hi] at hj
    exact hc c' hj
  · refine k j c' ?_
    rw [← hj, compiler, compiler, Transformer.setCompiler, List.getD_eq_getElem?_getD,
      List.getD_eq_getElem?_getD, List.getElem?_set]
    split
    · rename_i h
      subst h
      have hlong : ¬ i < t.compilers.length := fun hi => hij ⟨rfl, hi⟩
      rw [if_neg hlong, List.getElem?_eq_none (Nat.not_lt.mp hlong)]
    · rfl

/-- A compiler that is set up knows the graph file only. -/
theorem Knows.find (k : Knows past t) (call : Call) (hfind : t.find w call.argument = .ok (i, t')) :
    Knows (past ++ [⟨t, w, call⟩]) t' := by
  intro j c hc
  rcases (found_of_find hfind).compilers with h | ⟨host, made, -, hmade, h⟩
  · refine (k j c ?_).later _
    rwa [compiler, h, ← compiler] at hc
  · by_cases hj : j < t.compilers.length
    · refine (k j c ?_).later _
      rwa [compiler, h, List.getD_eq_getElem?_getD, List.getElem?_append_left hj,
        ← List.getD_eq_getElem?_getD, ← compiler] at hc
    · rw [compiler, h, List.getD_eq_getElem?_getD,
        List.getElem?_append_right (Nat.not_lt.mp hj)] at hc
      -- It is the compiler that was made for this call.
      have hlast : j = t.compilers.length := by
        by_contra hne
        rw [List.getElem?_eq_none (by rw [List.length_singleton]; omega)] at hc
        cases hc
      subst hlast
      rw [Nat.sub_self, List.getElem?_cons_zero, Option.getD_some] at hc
      subst hc
      have hsets : Moment.SetsUp ⟨t, w, call⟩ t.compilers.length :=
        ⟨rfl, i, t', hfind, by rw [h, List.length_append]; exact Nat.lt_succ_self _⟩
      obtain ⟨codes, config, -, -, hcreate⟩ := createCompiler_eq_ok hmade
      rw [Compiler.create] at hcreate
      split at hcreate
      · cases hcreate
      · cases hcreate
        constructor
        · intro p text _ h
          cases h
        · exact fun p e _ h => .found (by simp) hsets h

theorem Knows.after (k : Knows past t) (hw : w.IsMiniature) {call : Call}
    (hc : call.IsCurrent t w) : Knows (past ++ [⟨t, w, call⟩]) (call.after t w).1 := by
  cases hfind : t.find w call.argument with
  | error e =>
    rw [after_of_find_error hfind]
    exact k.later _
  | ok found =>
    obtain ⟨i, t'⟩ := found
    have k' := k.find call hfind
    have habout : ∀ r ∈ call.request?, ∀ c, t'.compiler i = .language c →
        Moment.IsAbout ⟨t, w, call⟩ i c (c.config.rootDir.resolve r.path) r.source := by
      intro r hr c hi
      have hread := hc i t' hfind r hr
      rw [hi] at hread
      exact ⟨⟨t', hfind, hi⟩, ⟨r, hr, rfl, rfl⟩, hread⟩
    cases call with
    | configSet host =>
      have hfor : t.compilerFor w host = .ok (i, t') := hfind
      rw [Call.after, configSet, hfor]
      exact k'
    | process r host =>
      have hfor : t.find w (.live host) = .ok (i, t') := hfind
      rw [Call.after, process_eq, hfor]
      dsimp only
      rcases transform_cases t' w i r.source ((t'.compiler i).config.rootDir.resolve r.path)
        r.options with heq | heq
      · rw [heq]
        exact k'
      · rw [heq]
        refine knows_setCompiler k' fun c' hc' => ?_
        cases hi : t'.compiler i with
        | isolated config =>
          rw [hi] at hc'
          cases hc'
        | language c =>
          rw [hi] at hc'
          cases hc'
          exact (k' i c hi).compile hw (habout r rfl c hi) (resolve_normal _ _) r.options
    | key r a =>
      have hfor : t.find w a = .ok (i, t') := hfind
      rw [Call.after, key_eq_of_ok r hfor]
      refine knows_setCompiler k' fun c' hc' => ?_
      cases hi : t'.compiler i with
      | isolated config =>
        rw [hi] at hc'
        cases hc'
      | language c =>
        rw [hi] at hc'
        cases hc'
        exact (k' i c hi).resolvedModules hw (habout r rfl c hi) (resolve_normal _ _)

/-! ## Runs -/

theorem IsSound.call (f : IsSound t w) (c : Call) :
    IsSound (c.after t w).1 (c.after t w).2 := by
  cases c with
  | configSet host =>
    rw [Call.after, configSet]
    split
    · rename_i hfor
      have hfind : t.find w (.live host) = _ := hfor
      exact f.find hfind
    · exact f
  | process r host => exact f.process r host
  | key r a => exact f.key r a

theorem Run.isSound (run : Run past t w) : IsSound t w := by
  induction run with
  | start registry fallback hm => exact isSound_new registry fallback hm
  | change _ hm ih => exact ⟨ih.all, hm, trivial⟩
  | call c _ _ ih => exact ih.call c

/-- In every run all compilers know nothing but what was there to be seen. -/
theorem Run.knows (run : Run past t w) : Knows past t := by
  induction run with
  | start registry fallback _ => exact knows_new registry fallback
  | change _ _ ih => exact ih
  | call c run hc ih => exact ih.after run.isSound.miniature hc

/-! ## The modules behind a key -/

/-- The list of modules that goes into the key for a file. -/
def hashedModules (w : World) (c : LanguageCompiler) (file : Path) (source : Text) : List Path :=
  ((c.sessionIn w).resolvedModules source file).1

/-- What a list of modules rests on: an entry that the compiler has for the source, or else the
picture that the compiler has of the project. -/
inductive RestsOn (past : List Moment) (i : Nat) (w : World) (c : LanguageCompiler) (file : Path)
    (source : Text) (modules : List Path) : Prop where
  | entry (e : GraphEntry) : c.graph.graph.get? file = some e → e.content = source →
      e.modules = modules → Recorded past i c.config.cacheDirectory file e →
      RestsOn past i w c file source modules
  | picture (pic : Picture) : c.graph.lookupValid? file source = none →
      Sees past i w c file pic → Closure.IsClosure pic.imports file modules →
      RestsOn past i w c file source modules

theorem restsOn_resolvedModules (hw : w.IsMiniature) (k : Known past i c)
    (hf : file.normalize = file) (hs : w.disk.read? file = some content) :
    RestsOn past i w c file content (hashedModules w c file content) := by
  have hcases := LanguageCompiler.Session.resolvedModules_cases (s := c.sessionIn w)
    (hw _) content file
  rw [hf] at hcases
  rcases hcases with ⟨e, hget, hcontent, hmodules⟩ | ⟨hnone, hmodules⟩
  · exact .entry e hget hcontent hmodules.symm (k.entries file e hf hget)
  · refine .picture _ hnone (k.sees hf hs) ?_
    rw [hashedModules, hmodules]
    exact Closure.ofImports_isClosure hf
      (LanguageCompiler.Session.isBound_imports (hw c.config.compiler.id))

/-- A call for a key that is given the source on disk and is served by a compiler that follows
imports. -/
structure KeyCall (t : Transformer) (w : World) (r : Request) (a : HostArgument) (i : Nat)
    (t' : Transformer) (c : LanguageCompiler) : Prop where
  found : t.find w a = .ok (i, t')
  language : t'.compiler i = .language c
  onDisk : w.disk.read? (c.config.rootDir.resolve r.path) = some r.source

variable {r : Request} {a : HostArgument}

/-- The key is made of that list. -/
theorem key_of_modules (call : KeyCall t w r a i t' c) :
    (t.key w r a).1 = .ok (Digest.ofParts
      ((keyParts c.config t'.fallback r.source (c.config.rootDir.resolve r.path) r.options
        (t.key w r a).2.2.disk
        (hashedModules w c (c.config.rootDir.resolve r.path) r.source)).map Text.utf8)) := by
  have hdisk : ∀ file, (t'.keyOf w i r.source file r.options).2.2.disk =
      ((c.sessionIn w).resolvedModules r.source file).2.world.disk := by
    intro file
    rw [keyOf, call.language, LanguageCompiler.resolvedModulesIn_language]
    rfl
  rw [key_eq_of_ok r call.found]
  dsimp only
  rw [hdisk, keyOf_language call.language, call.language]
  rfl

/-- The list of modules that a key is made of is exactly what the file reaches by imports
without entering `node_modules`, in the picture that the compiler has of the project now.  If
the compiler has an entry for the source, it is what was recorded: that too is exactly what the
file reached in the picture that the compiler had at an earlier call, unless the compiler was set
up with it. -/
theorem modules_of_key (run : Run past t w) (call : KeyCall t w r a i t' c) :
    (t.key w r a).1 = .ok (Digest.ofParts
        ((keyParts c.config t'.fallback r.source (c.config.rootDir.resolve r.path) r.options
          (t.key w r a).2.2.disk
          (hashedModules w c (c.config.rootDir.resolve r.path) r.source)).map Text.utf8)) ∧
      RestsOn (past ++ [⟨t, w, .key r a⟩]) i w c (c.config.rootDir.resolve r.path) r.source
        (hashedModules w c (c.config.rootDir.resolve r.path) r.source) := by
  have hknown := run.knows.find (.key r a) call.found i c call.language
  exact ⟨key_of_modules call, restsOn_resolvedModules run.isSound.miniature hknown
    (resolve_normal _ _) call.onDisk⟩

/-! ## A module that is edited on disk -/

namespace Edited

def host : HostConfig where
  rootDir := Path.ofString "/project"
  cacheDirectory := some (Path.ofString "/cache")

def named : HostArgument := .text host.canonical

/-- A text that imports a module. -/
def importing (module : Text) : Text := "import \"" ++ module ++ "\";\n"

/-- A project in which a module and a test import `b`, and `b` a given module. -/
def project (module : Text) : World where
  disk.store := (((({} : Store).add (Path.ofString "/project/a.ts") (importing "./b")).add
    (Path.ofString "/project/a.test.ts") (importing "./b")).add
      (Path.ofString "/project/b.ts") (importing module)).add (Path.ofString "/project/c.ts") []
        |>.add (Path.ofString "/project/d.ts") []
  engines := [.miniature { version := Miniature.Engine.defaultVersion }]

def module : Request where
  source := importing "./b"
  path := Path.ofString "a.ts"

def test : Request where
  source := importing "./b"
  path := Path.ofString "a.test.ts"

def start : Transformer where
  registry := ({} : CompilerRegistry).register CompilerRegistry.defaultName
    ⟨0, Miniature.Engine.defaultVersion⟩

/-- A request for a key that is made while `b` imports `c`, and what it leaves. -/
def asking (r : Request) : Moment := ⟨start, project "./c", .key r named⟩

def asked (r : Request) : Transformer × World := (Call.key r named).after start (project "./c")

/-- The same request made once more, when `b` imports `d`. -/
def again (r : Request) : Moment := ⟨(asked r).1, project "./d", .key r named⟩

/-- The project after `b` has been changed, with the graph file that was written before. -/
def reopened : World where
  disk.store := (asked test).2.disk.store.add (Path.ofString "/project/b.ts") (importing "./d")
  engines := (project "./d").engines

/-- The compiler that serves a request, if it follows imports. -/
def served? (t : Transformer) (w : World) : Option LanguageCompiler :=
  match t.find w named with
  | .ok (i, t) =>
    match t.compiler i with
    | .language c => some c
    | .isolated _ => none
  | .error _ => none

/-- What a compiler has for a request: the file, the entry for the source, how many texts it
holds, and the modules. -/
def has (w : World) (r : Request) (file : Path) (c : LanguageCompiler) :
    Path × Option (List Path) × Nat × List Path :=
  (c.config.rootDir.resolve r.path, c.graph.lookupValid? file r.source,
    c.host.files.records.length, hashedModules w c file r.source)

theorem keyCall_of_served (t : Transformer) (w : World) (r : Request) (file : Path)
    (entry : Option (List Path)) (held : Nat) (modules : List Path)
    (h : (served? t w).map (has w r file) = some (file, entry, held, modules))
    (hs : w.disk.read? file = some r.source) : ∃ i t' c, KeyCall t w r named i t' c ∧
      c.config.rootDir.resolve r.path = file ∧ c.graph.lookupValid? file r.source = entry ∧
      c.host.files.records.length = held ∧ hashedModules w c file r.source = modules := by
  obtain ⟨c, hc, hhas⟩ := Option.map_eq_some_iff.mp h
  simp only [has, Prod.mk.injEq] at hhas
  rw [served?] at hc
  split at hc
  · rename_i i t' hfound
    split at hc
    · rename_i c' hlanguage
      cases hc
      exact ⟨i, t', c, ⟨hfound, hlanguage, by rw [hhas.1]; exact hs⟩, hhas⟩
    · cases hc
  · cases hc

theorem isMiniature_project (module : Text) : (project module).IsMiniature := by
  intro id
  cases id <;> trivial

theorem isMiniature_reopened : reopened.IsMiniature := by
  intro id
  cases id <;> trivial

theorem run_asked (r : Request) (file : Path) (entry : Option (List Path)) (held : Nat)
    (modules : List Path) (h : (served? start (project "./c")).map (has (project "./c") r file) =
      some (file, entry, held, modules)) (hs : (project "./c").disk.read? file = some r.source) :
    Run [asking r] (asked r).1 (project "./d") := by
  have hcurrent : (Call.key r named).IsCurrent start (project "./c") := by
    intro i t' hfound r' hr'
    cases hr'
    obtain ⟨j, t'', c, call, -⟩ := keyCall_of_served start _ r file entry held modules h hs
    cases call.found.symm.trans hfound
    rw [call.language]
    exact call.onDisk
  have hstart : Run [] start (project "./c") :=
    .start start.registry none (isMiniature_project "./c")
  exact .change (.call _ hstart hcurrent) (isMiniature_project "./d")

/-- What `b` imported first. -/
def old : List Path := [Path.ofString "/project/b.ts", Path.ofString "/project/c.ts"]

/-- It misses what `b` imports now. -/
theorem not_isClosure {d : Disk} {file : Path}
    (hb : Path.ofString "/project/b.ts" ∈ d.picture.imports file)
    (hd : Path.ofString "/project/d.ts" ∈ d.picture.imports (Path.ofString "/project/b.ts"))
    (hfile : Path.ofString "/project/d.ts" ≠ file) :
    ¬ Closure.IsClosure d.picture.imports file old := by
  intro hclosure
  have hb' : Closure.Reaches d.picture.imports file (Path.ofString "/project/b.ts") :=
    Closure.Reaches.start.step hb (by decide +kernel)
  have hd' : Closure.Reaches d.picture.imports file (Path.ofString "/project/d.ts") :=
    hb'.step hd (by decide +kernel)
  have hmem := (hclosure.mem_iff _).mpr ⟨hd', hfile⟩
  simp [old, Path.ofString] at hmem

end Edited

/-- A test that was recorded while `b` imported `c`: the list goes into the key again after `b`
has been changed, and rests on the call that made it. -/
theorem modules_of_key_recorded : ∃ i t' c,
    KeyCall (Edited.asked Edited.test).1 (Edited.project "./d") Edited.test Edited.named i t' c ∧
      c.graph.lookupValid? (Path.ofString "/project/a.test.ts") Edited.test.source =
        some Edited.old ∧
      RestsOn ([Edited.asking Edited.test] ++ [Edited.again Edited.test]) i
        (Edited.project "./d") c (Path.ofString "/project/a.test.ts") Edited.test.source
        Edited.old := by
  obtain ⟨i, t', c, call, hfile, hentry, -, hmodules⟩ := Edited.keyCall_of_served
    (Edited.asked Edited.test).1 (Edited.project "./d") Edited.test
    (Path.ofString "/project/a.test.ts") (some Edited.old) 3 Edited.old
    (by decide +kernel) (by decide +kernel)
  have hrun := Edited.run_asked Edited.test (Path.ofString "/project/a.test.ts") none 0 Edited.old
    (by decide +kernel) (by decide +kernel)
  have h := (modules_of_key hrun call).2
  rw [hfile, hmodules] at h
  exact ⟨i, t', c, call, hentry, h⟩

/-- Without an entry for the source: the text of `b` has been kept. -/
theorem not_fresh_without_entry : ¬ ∀ past t w r a i t' c, Run past t w →
    KeyCall t w r a i t' c →
    c.graph.lookupValid? (c.config.rootDir.resolve r.path) r.source = none →
    Closure.IsClosure w.disk.picture.imports (c.config.rootDir.resolve r.path)
      (hashedModules w c (c.config.rootDir.resolve r.path) r.source) := by
  intro h
  obtain ⟨i, t', c, call, hfile, hentry, -, hmodules⟩ := Edited.keyCall_of_served
    (Edited.asked Edited.module).1 (Edited.project "./d") Edited.module
    (Path.ofString "/project/a.ts") none 3 Edited.old (by decide +kernel) (by decide +kernel)
  have hrun := Edited.run_asked Edited.module (Path.ofString "/project/a.ts") none 0 Edited.old
    (by decide +kernel) (by decide +kernel)
  have hclosure := h _ _ _ _ _ i t' c hrun call (by rw [hfile, hentry])
  rw [hfile, hmodules] at hclosure
  exact Edited.not_isClosure (by decide +kernel) (by decide +kernel) (by decide) hclosure

/-- With no text kept that is not on disk: the list stands in the graph file. -/
theorem not_fresh_with_texts : ¬ ∀ past t w r a i t' c, Run past t w →
    KeyCall t w r a i t' c →
    (∀ p text, c.host.files.text? p = some text → w.disk.read? p = some text) →
    Closure.IsClosure w.disk.picture.imports (c.config.rootDir.resolve r.path)
      (hashedModules w c (c.config.rootDir.resolve r.path) r.source) := by
  intro h
  obtain ⟨i, t', c, call, hfile, -, hheld, hmodules⟩ := Edited.keyCall_of_served
    Edited.start Edited.reopened Edited.test (Path.ofString "/project/a.test.ts")
    (some Edited.old) 0 Edited.old (by decide +kernel) (by decide +kernel)
  have hrun : Run [] Edited.start Edited.reopened :=
    .start Edited.start.registry none Edited.isMiniature_reopened
  have hclosure := h _ _ _ _ _ i t' c hrun call (by
    intro p text ht
    rw [FileTable.text?, FileTable.get?, List.eq_nil_of_length_eq_zero hheld] at ht
    cases ht)
  rw [hfile, hmodules] at hclosure
  exact Edited.not_isClosure (by decide +kernel) (by decide +kernel) (by decide) hclosure

/-- The list of modules behind a key is not always what the file reaches on disk now: not if there
is no entry for the source, and not if all texts that are kept are as on disk. -/
theorem modules_not_always_fresh :
    (¬ ∀ past t w r a i t' c, Run past t w → KeyCall t w r a i t' c →
      c.graph.lookupValid? (c.config.rootDir.resolve r.path) r.source = none →
      Closure.IsClosure w.disk.picture.imports (c.config.rootDir.resolve r.path)
        (hashedModules w c (c.config.rootDir.resolve r.path) r.source)) ∧
    ¬ ∀ past t w r a i t' c, Run past t w → KeyCall t w r a i t' c →
      (∀ p text, c.host.files.text? p = some text → w.disk.read? p = some text) →
      Closure.IsClosure w.disk.picture.imports (c.config.rootDir.resolve r.path)
        (hashedModules w c (c.config.rootDir.resolve r.path) r.source) :=
  ⟨not_fresh_without_entry, not_fresh_with_texts⟩

end Transformer
end TestTransform

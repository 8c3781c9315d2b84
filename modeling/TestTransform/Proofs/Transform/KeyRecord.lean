/-
What a key says.

A key is the digest of a list of parts.  Behind five parts that are always there stands the
name of the fallback, if there is one, and then a path and a time for each module.  The
modules come in pairs, so the number of parts shows whether the name is among them, and a
time is a numeral unless it is the mark for a module that has none.  So the parts can be read
back, and requests with the same key agree on all that went into it.
-/
import TestTransform.Proofs.Digest.Length
import TestTransform.Proofs.Json.Compact
import TestTransform.Transform.Transformer

namespace TestTransform

/-- What goes into a key. -/
structure KeyRecord where
  /-- The digest of the configuration. -/
  config : Text
  rootDir : Text
  instrument : Bool
  source : Text
  /-- The path of the file, resolved against the root directory. -/
  file : Text
  /-- The name of the fallback transformer, if there is one. -/
  fallback : Option Text
  /-- The modules with the times of their last changes in milliseconds, as far as they have
  one. -/
  modules : List (Path × Option Nat)
  deriving DecidableEq, Repr

namespace KeyRecord

/-- A time as it is written in a key. -/
def spelledTime : Option Nat → Text
  | some milliseconds => Text.ofNat milliseconds
  | none => "missing"

def spelledModules (ms : List (Path × Option Nat)) : List Text :=
  ms.flatMap fun m => [m.1.text, spelledTime m.2]

def switch (on : Bool) : Text := if on then "instrument:on" else "instrument:off"

/-- The parts of a key in the order in which they are hashed. -/
def parts (r : KeyRecord) : List Text :=
  [r.config, r.rootDir, switch r.instrument, r.source, r.file] ++ r.fallback.toList ++
    spelledModules r.modules

/-! ## Reading the parts back -/

theorem switch_injective {a b : Bool} (h : switch a = switch b) : a = b := by
  revert a b
  decide

/-- No numeral is the mark for a module without a time. -/
theorem ofNat_ne_missing (n : Nat) : Text.ofNat n ≠ ("missing" : Text) := by
  intro h
  have hdigit : Text.isDigit 'm' = true := by
    apply Json.isDigit_of_mem_ofNat (n := n)
    rw [h]
    decide
  cases hdigit

theorem spelledTime_injective {a b : Option Nat} (h : spelledTime a = spelledTime b) :
    a = b := by
  cases a with
  | none =>
    cases b with
    | none => rfl
    | some n => exact absurd h.symm (ofNat_ne_missing n)
  | some m =>
    cases b with
    | none => exact absurd h (ofNat_ne_missing m)
    | some n => rw [Json.ofNat_injective h]

theorem length_spelledModules (ms : List (Path × Option Nat)) :
    (spelledModules ms).length = 2 * ms.length := by
  induction ms with
  | nil => rfl
  | cons m ms ih =>
    rw [spelledModules, List.flatMap_cons, List.length_append, ← spelledModules, ih]
    simp
    omega

theorem spelledModules_injective {ms ns : List (Path × Option Nat)}
    (h : spelledModules ms = spelledModules ns) : ms = ns := by
  induction ms generalizing ns with
  | nil =>
    cases ns with
    | nil => rfl
    | cons n ns => simp [spelledModules] at h
  | cons m ms ih =>
    cases ns with
    | nil => simp [spelledModules] at h
    | cons n ns =>
      simp only [spelledModules, List.flatMap_cons, List.cons_append, List.nil_append,
        List.cons.injEq] at h
      obtain ⟨hpath, htime, hrest⟩ := h
      have hm : m = n := Prod.ext (congrArg Path.mk hpath) (spelledTime_injective htime)
      rw [hm, ih hrest]

/-- The optional part can be told from the pairs behind it: with it their number is odd. -/
theorem optional_append_inj {a b : Option Text} {ms ns : List (Path × Option Nat)}
    (h : a.toList ++ spelledModules ms = b.toList ++ spelledModules ns) : a = b ∧ ms = ns := by
  have hlength := congrArg List.length h
  rw [List.length_append, List.length_append, length_spelledModules,
    length_spelledModules] at hlength
  cases a with
  | none =>
    cases b with
    | none => exact ⟨rfl, spelledModules_injective h⟩
    | some y =>
      simp at hlength
      omega
  | some x =>
    cases b with
    | none =>
      simp at hlength
      omega
    | some y =>
      simp only [Option.toList_some, List.cons_append, List.nil_append, List.cons.injEq] at h
      exact ⟨by rw [h.1], spelledModules_injective h.2⟩

theorem parts_injective {r s : KeyRecord} (h : r.parts = s.parts) : r = s := by
  obtain ⟨config, rootDir, instrument, source, file, fallback, modules⟩ := r
  obtain ⟨config', rootDir', instrument', source', file', fallback', modules'⟩ := s
  simp only [parts, List.cons_append, List.nil_append, List.cons.injEq] at h
  obtain ⟨rfl, rfl, hswitch, rfl, rfl, hrest⟩ := h
  obtain ⟨rfl, rfl⟩ := optional_append_inj hrest
  rw [switch_injective hswitch]

/-- What is hashed for a record. -/
def bytes (r : KeyRecord) : List UInt8 := Digest.encodeParts (r.parts.map Text.utf8)

/-- Whether the lengths of all parts can be written in front of them. -/
def Fits (r : KeyRecord) : Prop := ∀ p ∈ r.parts, Digest.Fits p.utf8

theorem bytes_injective {r s : KeyRecord} (hr : r.Fits) (hs : s.Fits) (h : r.bytes = s.bytes) :
    r = s := by
  have hmap : ∀ {k : KeyRecord}, k.Fits → ∀ p ∈ k.parts.map Text.utf8, Digest.Fits p := by
    intro k hk p hp
    obtain ⟨t, ht, rfl⟩ := List.mem_map.mp hp
    exact hk t ht
  have hparts := Digest.encodeParts_injective (hmap hr) (hmap hs) h
  exact parts_injective (Digest.map_utf8_injective hparts)

end KeyRecord

theorem ConfigSet.fits_cacheKey (c : ConfigSet) : Digest.Fits c.cacheKey.utf8 := by
  rw [ConfigSet.cacheKey, ConfigSet.digestOf, Digest.ofText]
  exact Digest.fits_hexDigest _

namespace Transformer

theorem spelledTime_moduleTime (disk : Disk) (module : Path) :
    KeyRecord.spelledTime (moduleTime disk module) = timeText disk module := by
  rw [timeText]
  cases moduleTime disk module <;> rfl

theorem spelledModules_moduleTime (disk : Disk) (modules : List Path) :
    KeyRecord.spelledModules (modules.map fun m => (m, moduleTime disk m)) =
      moduleParts disk modules := by
  simp only [KeyRecord.spelledModules, List.flatMap_map, spelledTime_moduleTime, moduleParts]

/-- What goes into the key for a file with a compiler that is known. -/
def keyRecord (t : Transformer) (w : World) (i : Nat) (source : Text) (file : Path)
    (options : TransformOptions) : KeyRecord :=
  let (modules, _, after) := (t.compiler i).resolvedModulesIn w source file
  { config := (t.compiler i).config.cacheKey
    rootDir := (t.compiler i).config.rootDir.text
    instrument := options.instrument
    source
    file := file.text
    fallback := t.fallback.map (·.name)
    modules := modules.map fun m => (m, moduleTime after.disk m) }

/-- A compiler for isolated modules is not asked for any. -/
theorem keyRecord_isolated {t : Transformer} {i : Nat} {c : ConfigSet}
    (hc : t.compiler i = .isolated c) (w : World) (source : Text) (file : Path)
    (options : TransformOptions) :
    t.keyRecord w i source file options =
      { config := c.cacheKey, rootDir := c.rootDir.text, instrument := options.instrument, source,
        file := file.text, fallback := t.fallback.map (·.name), modules := [] } := by
  simp only [keyRecord, hc, Compiler.resolvedModulesIn, Compiler.resolvedModules,
    Compiler.config, List.map_nil]

theorem keyOf_eq_bytes (t : Transformer) (w : World) (i : Nat) (source : Text) (file : Path)
    (options : TransformOptions) :
    (t.keyOf w i source file options).1 =
      Blake3.hexDigest (t.keyRecord w i source file options).bytes := by
  rw [keyOf, keyRecord]
  generalize Compiler.resolvedModulesIn w (t.compiler i) source file = out
  obtain ⟨modules, after, w'⟩ := out
  simp only [KeyRecord.bytes, KeyRecord.parts, spelledModules_moduleTime]
  rfl

section Injective

variable {t t' : Transformer} {w w' : World} {i i' : Nat} {source source' : Text}
  {file file' : Path} {options options' : TransformOptions}

/-- Two keys are equal only if all that went into them is: the digest of the configuration,
the root directory, the switch, the source, the path, the fallback, and the modules with their
times. -/
theorem keyRecord_of_keyOf
    (hfits : (t.keyRecord w i source file options).Fits)
    (hfits' : (t'.keyRecord w' i' source' file' options').Fits)
    (hhash : Blake3.TellsApart (t.keyRecord w i source file options).bytes
      (t'.keyRecord w' i' source' file' options').bytes)
    (hkey : (t.keyOf w i source file options).1 = (t'.keyOf w' i' source' file' options').1) :
    t.keyRecord w i source file options = t'.keyRecord w' i' source' file' options' := by
  rw [keyOf_eq_bytes, keyOf_eq_bytes] at hkey
  exact KeyRecord.bytes_injective hfits hfits' (hhash hkey)

/-- A key does not say whether the caller takes ECMAScript modules, so one that does and one
that does not get the same key for a module compiled on its own. -/
theorem keyRecord_of_keyOf_isolated :
    let t : Transformer := { registry := {}, fallback := some (.marking "babel")
                             compilers := [.isolated default] }
    let record := t.keyRecord {} 0 "let x = 1;" ("/p/x.ts" : Path)
    record { supportsEsm := true } = record { supportsEsm := false } := by
  intro t record
  have hrecord : ∀ esm, record { supportsEsm := esm } =
      { config := (default : ConfigSet).cacheKey, rootDir := [], instrument := false
        source := "let x = 1;", file := "/p/x.ts", fallback := some "babel", modules := [] } :=
    fun _ => keyRecord_isolated rfl ..
  have hfits : ∀ esm, (record { supportsEsm := esm }).Fits := by
    intro esm
    rw [hrecord, KeyRecord.Fits, KeyRecord.parts, List.cons_append, List.cons_append,
      List.forall_mem_cons]
    dsimp only
    refine ⟨ConfigSet.fits_cacheKey default, fun p hp => Digest.fits_of_length ?_⟩
    revert p
    decide
  refine keyRecord_of_keyOf (hfits true) (hfits false) (fun _ => ?_) ?_
  · show KeyRecord.bytes (record { supportsEsm := true }) =
      KeyRecord.bytes (record { supportsEsm := false })
    rw [hrecord, hrecord]
  · rw [keyOf_eq_bytes, keyOf_eq_bytes]
    show Blake3.hexDigest (KeyRecord.bytes (record { supportsEsm := true })) =
      Blake3.hexDigest (KeyRecord.bytes (record { supportsEsm := false }))
    rw [hrecord, hrecord]

end Injective

end Transformer
end TestTransform

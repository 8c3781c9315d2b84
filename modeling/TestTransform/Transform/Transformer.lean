/-
The transformer: what a test runner calls for every file.

There is one compiler for each host configuration, made when the configuration is first
seen and used again whether the host passes the configuration itself or its text.
Configurations held by the host are recognized by identity, which is cheaper than
comparing them; equal ones share a compiler, and the one seen last holds its slot.
-/
import TestTransform.Config.Error
import TestTransform.Transform.World

namespace TestTransform

/-- Why a file cannot be transformed. -/
inductive TransformError where
  | config (error : ConfigError)
  | compile (error : CompileError)
  | fallback (name message : Text)
  deriving DecidableEq, Repr

namespace TransformError

def message : TransformError → Text
  | config e => e.message
  | compile e => e.message
  | fallback name message => "Fallback transformer '" ++ name ++ "' failed: " ++ message

end TransformError

/-- A host configuration and who holds it: a number that the host gives each one it holds,
or nobody if the configuration was read from a text. -/
structure LiveHost where
  id : Option Nat := none
  config : HostConfig
  deriving DecidableEq, Repr, Inhabited

/-- Whether two are one and the same.  One that nobody holds never comes again. -/
def LiveHost.isSame (a b : LiveHost) : Bool := a.id.isSome && a.id == b.id

structure Transformer where
  registry : CompilerRegistry
  fallback : Option Fallback := none
  /-- The compilers in the order in which they were made. -/
  compilers : List Compiler := []
  /-- The slots: for each compiler at most one host, the one that was seen last. -/
  live : List (LiveHost × Nat) := []
  /-- The texts for which the compiler is known. -/
  texts : List (Text × Nat) := []
  deriving Inhabited

namespace Transformer

/-- A transformer as it is set up in production, without a fallback. -/
def production (registry : CompilerRegistry) : Transformer := { registry }

def compiler (t : Transformer) (i : Nat) : Compiler := t.compilers.getD i default

/-- Puts a compiler back that has worked. -/
def setCompiler (t : Transformer) (i : Nat) (c : Compiler) : Transformer :=
  { t with compilers := t.compilers.set i c }

/-! ## Finding the compiler -/

/-- Remembers the compiler for a text. -/
def rememberText (t : Transformer) (text : Text) (i : Nat) : Transformer :=
  { t with texts := Assoc.insert Text.cmp text i t.texts }

/-- Sets up a compiler for a configuration. -/
def createCompiler (t : Transformer) (w : World) (host : HostConfig) :
    Except ConfigError Compiler := do
  let codes ← environmentCodes w.ignoreCodes
  let config ← ConfigSet.build w.view t.registry codes host
  .ok (Compiler.create w.view config)

/-- The compiler for a configuration, known by its canonical text or made now. -/
def compilerOf (t : Transformer) (w : World) (host : HostConfig) :
    Except ConfigError (Nat × Transformer) :=
  match Assoc.find? Text.cmp host.canonical t.texts with
  | some i => .ok (i, t)
  | none => do
    let c ← t.createCompiler w host
    let i := t.compilers.length
    .ok (i, { t with compilers := t.compilers ++ [c] }.rememberText host.canonical i)

/-- Gives the slot of a compiler to a host, or opens one. -/
def occupy (host : LiveHost) (i : Nat) : List (LiveHost × Nat) → List (LiveHost × Nat)
  | [] => [(host, i)]
  | slot :: slots => if slot.2 == i then (host, i) :: slots else slot :: occupy host i slots

/-- The compiler for a host. -/
def compilerFor (t : Transformer) (w : World) (host : LiveHost) :
    Except ConfigError (Nat × Transformer) :=
  match t.live.find? fun slot => slot.1.isSame host with
  | some slot => .ok (slot.2, t)
  | none => do
    let (i, t) ← t.compilerOf w host.config
    .ok (i, { t with live := occupy host i t.live })

/-- The compiler for a configuration given as a text. -/
def compilerForText (t : Transformer) (w : World) (text : Text) :
    Except ConfigError (Nat × Transformer) :=
  match Assoc.find? Text.cmp text t.texts with
  | some i => .ok (i, t)
  | none => do
    let host ← HostConfig.ofText text
    let (i, t) ← t.compilerFor w { config := host }
    .ok (i, t.rememberText text i)

/-- The configuration set for a host. -/
def configSet (t : Transformer) (w : World) (host : LiveHost) :
    Except TransformError (Nat × ConfigSet) × Transformer :=
  match t.compilerFor w host with
  | .ok (i, t) => (.ok (i, (t.compiler i).config), t)
  | .error e => (.error (.config e), t)

/-! ## Transforming -/

/-- A text as the source of a module that exports it. -/
def stringify (source : Text) : Text := "module.exports=" ++ (Json.str source).compact

def jsWarning (file : Path) : Text :=
  "Got a `.js` file to compile while `allowJs` option is not set to `true` (file: " ++ file.text ++
    "). If you want TypeScript to process this file, set `allowJs` to `true` in your " ++
    "TypeScript config."

def unknownFileWarning (file : Path) (fallback : Option Fallback) : Text :=
  let hint : Text := match fallback with
    | some f => " It will be handed to the `" ++ f.name ++ "` transformer as is."
    | none => []
  "Got a unknown file type to compile (file: " ++ file.text ++
    "). Change the transform pattern so that it does not match this kind of files anymore." ++ hint

/-- Compiles a source, or passes it on with a warning if there is nothing to compile. -/
def translate (t : Transformer) (w : World) (i : Nat) (source : Text) (file : Path)
    (options : TransformOptions) : Except TransformError TransformedSource × Transformer × World :=
  let compile : Except TransformError TransformedSource × Transformer × World :=
    let (outcome, c, w) := (t.compiler i).compileIn w source file options
    let result := match outcome with
      | .ok o => .ok { code := o.code, map := o.map }
      | .error e => .error (.compile e)
    (result, t.setCompiler i c, w)
  match FileKind.ofPath file with
  | .typeScript => compile
  | .javaScript =>
    if (t.compiler i).config.allowsJs then compile
    else (.ok { code := source }, t, w.warn Diagnostic.jsFileWithoutAllowJs (jsWarning file))
  | .other =>
    (.ok { code := source }, t,
      w.warn Diagnostic.unknownFileType (unknownFileWarning file t.fallback))

/-- Hands a result to the fallback, if there is one.  It is never asked to instrument. -/
def handOn (t : Transformer) (w : World) (file : Path) (r : TransformedSource) :
    Except TransformError TransformedSource × World :=
  match t.fallback with
  | none => (.ok r, w)
  | some f =>
    let w := { w with fallbackCalls := w.fallbackCalls ++ [(file, false)] }
    ((f.run r.code file false).mapError (TransformError.fallback f.name), w)

/-- Transforms a file with a compiler that is known.  Declarations become nothing, and
files to stringify a module that exports the text. -/
def transform (t : Transformer) (w : World) (i : Nat) (source : Text) (file : Path)
    (options : TransformOptions) : Except TransformError TransformedSource × Transformer × World :=
  let config := (t.compiler i).config
  if file.isDeclaration then (.ok { code := [] }, t, w)
  else if config.shouldStringify file then (.ok { code := stringify source }, t, w)
  else
    match t.translate w i source file options with
    | (.error e, t, w) => (.error e, t, w)
    | (.ok r, t, w) =>
      let (outcome, w) := t.handOn w file r
      (outcome, t, w)

/-- Transforms a file for a host. -/
def process (t : Transformer) (w : World) (source : Text) (path : Path) (host : LiveHost)
    (options : TransformOptions) : Except TransformError TransformedSource × Transformer × World :=
  match t.compilerFor w host with
  | .error e => (.error (.config e), t, w)
  | .ok (i, t) =>
    t.transform w i source ((t.compiler i).config.rootDir.resolve path) options

/-! ## Cache keys -/

/-- The time of a module's last change in milliseconds, if it can be had. -/
def moduleTime (disk : Disk) (module : Path) : Option Nat :=
  match disk.modified module with
  | .ok seconds => some (millisecondsOf (Store.nanoseconds seconds))
  | .error _ => none

/-- The time of a module's last change, or a mark that it has none. -/
def timeText (disk : Disk) (module : Path) : Text :=
  match moduleTime disk module with
  | some milliseconds => Text.ofNat milliseconds
  | none => "missing"

/-- What a key says about the modules: the text of each path and its time. -/
def moduleParts (disk : Disk) (modules : List Path) : List Text :=
  modules.flatMap fun m => [m.text, timeText disk m]

/-- What a key is made of. -/
def keyParts (config : ConfigSet) (fallback : Option Fallback) (source : Text) (file : Path)
    (options : TransformOptions) (disk : Disk) (modules : List Path) : List Text :=
  let instrument : Text := if options.instrument then "instrument:on" else "instrument:off"
  [config.cacheKey, config.rootDir.text, instrument, source, file.text] ++
    (fallback.map (·.name)).toList ++ moduleParts disk modules

/-- The key for a file with a compiler that is known.  The compiler is asked for the
modules only if it follows imports. -/
def keyOf (t : Transformer) (w : World) (i : Nat) (source : Text) (file : Path)
    (options : TransformOptions) : Text × Transformer × World :=
  let c := t.compiler i
  let (modules, after, w) := c.resolvedModulesIn w source file
  let parts := keyParts c.config t.fallback source file options w.disk modules
  (Digest.ofParts (parts.map Text.utf8), t.setCompiler i after, w)

/-- The key under which a runner may store what `process` gives for a file. -/
def cacheKeyFor (t : Transformer) (w : World) (source : Text) (path : Path) (host : LiveHost)
    (options : TransformOptions) : Except TransformError Text × Transformer × World :=
  match t.compilerFor w host with
  | .error e => (.error (.config e), t, w)
  | .ok (i, t) =>
    let (key, t, w) := t.keyOf w i source ((t.compiler i).config.rootDir.resolve path) options
    (.ok key, t, w)

/-- The key for a file, with the host configuration given as a text. -/
def cacheKey (t : Transformer) (w : World) (source : Text) (path : Path) (hostText : Text)
    (options : TransformOptions) : Except TransformError Text × Transformer × World :=
  match t.compilerForText w hostText with
  | .error e => (.error (.config e), t, w)
  | .ok (i, t) =>
    let (key, t, w) := t.keyOf w i source ((t.compiler i).config.rootDir.resolve path) options
    (.ok key, t, w)

end Transformer
end TestTransform

/-
The options handed to the compiler.

Options that the library reasons about are typed.  All others are kept as they were
written and come after the typed ones in the JSON form, sorted by name.
-/
import TestTransform.Options.ModuleKind
import TestTransform.Json.Decode
import TestTransform.Json.Printer
import TestTransform.Path.Basic

namespace TestTransform

/-- Why option values are refused. -/
inductive OptionsError where
  | unsupportedTarget (value : Text)
  | unsupportedModule (value : Text)
  | wrongType
  deriving DecidableEq, Repr

structure CompilerOptions where
  target : Option ScriptTarget := none
  module : Option ModuleKind := none
  allowJs : Option Bool := none
  esModuleInterop : Option Bool := none
  allowSyntheticDefaultImports : Option Bool := none
  sourceMap : Option Bool := none
  inlineSourceMap : Option Bool := none
  inlineSources : Option Bool := none
  declaration : Option Bool := none
  declarationMap : Option Bool := none
  declarationDir : Option Path := none
  emitDeclarationOnly : Option Bool := none
  composite : Option Bool := none
  noEmit : Option Bool := none
  removeComments : Option Bool := none
  outDir : Option Path := none
  rootDir : Option Path := none
  outFile : Option Path := none
  out : Option Path := none
  sourceRoot : Option Text := none
  tsBuildInfoFile : Option Path := none
  /-- The untyped options, sorted by name. -/
  other : Json.Fields := []
  deriving DecidableEq, Repr, Inhabited

namespace CompilerOptions

/-! ## The table of typed options -/

/-- A typed option: its name, how its value is read into the options, how it is written,
and when two options agree on it. -/
structure Slot where
  name : Text
  read : Json → CompilerOptions → Except OptionsError CompilerOptions
  write : CompilerOptions → Option Json
  agree : CompilerOptions → CompilerOptions → Bool

/-- A value that is `null` or read by `f`. -/
def readNullable {α : Type} (f : Json → Except OptionsError α) :
    Json → Except OptionsError (Option α)
  | .null => .ok none
  | j => (f j).map some

def readTarget : Json → Except OptionsError ScriptTarget
  | .str t =>
    match ScriptTarget.ofText? t with
    | some target => .ok target
    | none => .error (.unsupportedTarget t)
  | _ => .error .wrongType

def readModule : Json → Except OptionsError ModuleKind
  | .str t =>
    match ModuleKind.ofText? t with
    | some kind => .ok kind
    | none => .error (.unsupportedModule t)
  | _ => .error .wrongType

def readBool : Json → Except OptionsError Bool
  | .bool b => .ok b
  | _ => .error .wrongType

def readText : Json → Except OptionsError Text
  | .str t => .ok t
  | _ => .error .wrongType

/-- A slot for a switch. -/
def flag (name : Text) (get : CompilerOptions → Option Bool)
    (set : CompilerOptions → Option Bool → CompilerOptions) : Slot where
  name := name
  read j o := (readNullable readBool j).map (set o)
  write o := (get o).map .bool
  agree o p := get o == get p

/-- A slot for a path.  Paths agree when they are the same path, however spelled. -/
def pathSlot (name : Text) (get : CompilerOptions → Option Path)
    (set : CompilerOptions → Option Path → CompilerOptions) : Slot where
  name := name
  read j o := (readNullable readText j).map fun t => set o (t.map Path.mk)
  write o := (get o).map fun p => .str p.text
  agree o p :=
    match get o, get p with
    | none, none => true
    | some a, some b => a.same b
    | _, _ => false

/-- The typed options in the order in which they are written. -/
def slots : List Slot :=
  [ { name := "target"
      read := fun j o => (readNullable readTarget j).map fun v => { o with target := v }
      write := fun o => o.target.map fun v => .str v.text
      agree := fun o p => o.target == p.target },
    { name := "module"
      read := fun j o => (readNullable readModule j).map fun v => { o with module := v }
      write := fun o => o.module.map fun v => .str v.text
      agree := fun o p => o.module == p.module },
    flag "allowJs" allowJs fun o v => { o with allowJs := v },
    flag "esModuleInterop" esModuleInterop fun o v => { o with esModuleInterop := v },
    flag "allowSyntheticDefaultImports" allowSyntheticDefaultImports
      fun o v => { o with allowSyntheticDefaultImports := v },
    flag "sourceMap" sourceMap fun o v => { o with sourceMap := v },
    flag "inlineSourceMap" inlineSourceMap fun o v => { o with inlineSourceMap := v },
    flag "inlineSources" inlineSources fun o v => { o with inlineSources := v },
    flag "declaration" declaration fun o v => { o with declaration := v },
    flag "declarationMap" declarationMap fun o v => { o with declarationMap := v },
    pathSlot "declarationDir" declarationDir fun o v => { o with declarationDir := v },
    flag "emitDeclarationOnly" emitDeclarationOnly
      fun o v => { o with emitDeclarationOnly := v },
    flag "composite" composite fun o v => { o with composite := v },
    flag "noEmit" noEmit fun o v => { o with noEmit := v },
    flag "removeComments" removeComments fun o v => { o with removeComments := v },
    pathSlot "outDir" outDir fun o v => { o with outDir := v },
    pathSlot "rootDir" rootDir fun o v => { o with rootDir := v },
    pathSlot "outFile" outFile fun o v => { o with outFile := v },
    pathSlot "out" out fun o v => { o with out := v },
    { name := "sourceRoot"
      read := fun j o => (readNullable readText j).map fun v => { o with sourceRoot := v }
      write := fun o => o.sourceRoot.map .str
      agree := fun o p => o.sourceRoot == p.sourceRoot },
    pathSlot "tsBuildInfoFile" tsBuildInfoFile fun o v => { o with tsBuildInfoFile := v } ]

/-- The slot of a typed option. -/
def slot? (name : Text) : Option Slot := slots.find? fun s => s.name == name

/-! ## Reading and writing -/

/-- Reads one field into the options. -/
def readField (o : CompilerOptions) (field : Text × Json) : Except OptionsError CompilerOptions :=
  match slot? field.1 with
  | some s => s.read field.2 o
  | none => .ok { o with other := Assoc.insert Text.cmp field.1 field.2 o.other }

/-- Reads options out of the fields of an object, in their order. -/
def ofFields (fields : Json.Fields) : Except OptionsError CompilerOptions :=
  fields.foldlM readField {}

/-- Options are read from an object only. -/
def ofJson : Json → Except OptionsError CompilerOptions
  | .obj fields => ofFields fields
  | _ => .error .wrongType

/-- The typed options that have a value, in the order of the table, and then the others. -/
def toFields (o : CompilerOptions) : Json.Fields :=
  (slots.filterMap fun s => (s.write o).map fun v => (s.name, v)) ++ o.other

def toJson (o : CompilerOptions) : Json := .obj o.toFields

/-- Whether two sets of options are equal as values: paths by components, numbers as
numbers. -/
def same (o p : CompilerOptions) : Bool :=
  (slots.all fun s => s.agree o p) && Json.sameFields o.other p.other

/-! ## What a transform does to options -/

/-- Sets what inlining source maps needs and takes out what would write other files. -/
def force (o : CompilerOptions) : CompilerOptions :=
  { o with
    sourceMap := some true
    inlineSourceMap := some false
    inlineSources := some true
    declaration := some false
    noEmit := some false
    removeComments := some false
    out := none
    outFile := none
    composite := none
    declarationDir := none
    declarationMap := none
    emitDeclarationOnly := none
    sourceRoot := none
    tsBuildInfoFile := none }

def allowsJs (o : CompilerOptions) : Bool := o.allowJs.getD false

/-- The module system in effect; CommonJS unless one is named. -/
def effectiveModule (o : CompilerOptions) : ModuleKind := o.module.getD .commonJs

/-- The options for one compilation.  Modules stay ECMAScript modules only if that is
both wanted and supported, and then interop with CommonJS is switched on. -/
def forModuleSystem (o : CompilerOptions) (useEsm supportsEsm : Bool) : CompilerOptions :=
  if useEsm && supportsEsm then
    { o with
      module := some ((o.module.filter ModuleKind.isEsModule).getD .esNext)
      esModuleInterop := some true
      allowSyntheticDefaultImports := some true }
  else { o with module := some .commonJs }

end CompilerOptions

/-- The text shown for refused options, if it names what was refused. -/
def OptionsError.message? : OptionsError → Option Text
  | .unsupportedTarget v => some ("unsupported compilerOptions.target '" ++ v ++ "'")
  | .unsupportedModule v => some ("unsupported compilerOptions.module '" ++ v ++ "'")
  | .wrongType => none

end TestTransform

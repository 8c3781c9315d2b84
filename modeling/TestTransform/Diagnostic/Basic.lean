/-
Diagnostics: what a compiler, or the library itself, has to say about a file.
-/
import TestTransform.Json.Decode
import TestTransform.Json.Printer
import TestTransform.Path.Basic

namespace TestTransform

namespace Diagnostic

/-- A number as 32 bits hold it. -/
def narrow (n : Nat) : Nat := n % 4294967296

inductive Category where
  | error
  | warning
  | suggestion
  | message
  deriving DecidableEq, Repr, Inhabited

namespace Category

def text : Category → Text
  | error => "error"
  | warning => "warning"
  | suggestion => "suggestion"
  | message => "message"

def all : List Category := [error, warning, suggestion, message]

def ofText? (t : Text) : Option Category := all.find? fun c => c.text == t

/-- A category is written as its name, and also read from an object with that one field
and no value. -/
def ofJson? : Json → Option Category
  | .str t => ofText? t
  | .obj [(t, .null)] => ofText? t
  | _ => none

end Category

/-- A line and a character in it, both counted from zero. -/
structure Position where
  line : Nat
  character : Nat
  deriving DecidableEq, Repr, Inhabited

namespace Position

def ofJson? (j : Json) : Option Position :=
  match Json.record? [["line"], ["character"]] j with
  | some [line, character] => do
    some ⟨← Json.required? Json.asNat32? line, ← Json.required? Json.asNat32? character⟩
  | _ => none

def toJson (p : Position) : Json :=
  .obj [("line", Json.ofNat p.line), ("character", Json.ofNat p.character)]

/-- The number shown for a line or a character: one more, as a 32-bit number. -/
def shown (n : Nat) : Text := Text.ofNat (narrow (n + 1))

end Position

end Diagnostic

structure Diagnostic where
  category : Diagnostic.Category
  code : Nat
  message : Text
  file : Option Path := none
  start : Option Diagnostic.Position := none
  length : Option Nat := none
  deriving DecidableEq, Repr, Inhabited

namespace Diagnostic

def error (code : Nat) (message : Text) : Diagnostic := { category := .error, code, message }

def warning (code : Nat) (message : Text) : Diagnostic := { category := .warning, code, message }

def withFile (d : Diagnostic) (file : Path) : Diagnostic := { d with file := some file }

def withSpan (d : Diagnostic) (start : Position) (length : Nat) : Diagnostic :=
  { d with start := some start, length := some length }

/-- Errors and warnings may fail a compilation, the other categories never do. -/
def isImportant (d : Diagnostic) : Bool := d.category == .error || d.category == .warning

/-! ## JSON form -/

def ofJson? (j : Json) : Option Diagnostic :=
  match Json.record? [["category"], ["code"], ["message"], ["file"], ["start"], ["length"]] j with
  | some [category, code, message, file, start, length] => do
    let category ← Json.required? Category.ofJson? category
    let code ← Json.required? Json.asNat32? code
    let message ← Json.required? Json.asText? message
    let file ← Json.optional? Json.asText? file
    let start ← Json.optional? Position.ofJson? start
    let length ← Json.optional? Json.asNat32? length
    some { category, code, message, file := file.map Path.mk, start, length }
  | _ => none

/-- Fields without a value are left out. -/
def toJson (d : Diagnostic) : Json :=
  let fixed : Json.Fields :=
    [("category", .str d.category.text), ("code", Json.ofNat d.code), ("message", .str d.message)]
  .obj (fixed ++ Json.optionalField "file" (fun f => .str f.text) d.file ++
    Json.optionalField "start" Position.toJson d.start ++ Json.optionalField "length" Json.ofNat d.length)

/-! ## Codes of the library's own diagnostics -/

/-- A JavaScript file arrived although the options do not allow JavaScript. -/
def jsFileWithoutAllowJs : Nat := 151002

/-- A file arrived whose extension nothing handles. -/
def unknownFileType : Nat := 151003

/-! ## Collected diagnostics -/

/-- The number of diagnostics of a category. -/
def countOf (category : Category) (ds : List Diagnostic) : Nat :=
  ds.countP fun d => d.category == category

def errorCount (ds : List Diagnostic) : Nat := countOf .error ds

def warningCount (ds : List Diagnostic) : Nat := countOf .warning ds

def hasErrors (ds : List Diagnostic) : Bool := errorCount ds > 0

/-- The messages of the diagnostics with a code. -/
def messagesWithCode (code : Nat) (ds : List Diagnostic) : List Text :=
  (ds.filter fun d => d.code == code).map (·.message)

end Diagnostic
end TestTransform

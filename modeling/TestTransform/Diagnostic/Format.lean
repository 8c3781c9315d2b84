/-
How diagnostics are shown: one line each, or colored with the source line they point at.
-/
import TestTransform.Diagnostic.Basic

namespace TestTransform
namespace Diagnostic

/-- A file as seen from the working directory, with forward slashes. -/
def displayPath (file cwd : Path) : Text :=
  Text.replaceChar '\\' '/' ((file.relativeTo? cwd).getD file).text

/-- Category, code and message: `error TS1234: message`. -/
def headline (d : Diagnostic) : Text :=
  d.category.text ++ " TS" ++ Text.ofNat d.code ++ ": " ++ d.message

/-- The place in front of a headline, for a file shown as `file`. -/
def place (d : Diagnostic) (file : Text) : Text :=
  let at_ : Text :=
    match d.start with
    | some p => "(" ++ Position.shown p.line ++ "," ++ Position.shown p.character ++ ")"
    | none => ""
  file ++ at_ ++ ": "

/-- A diagnostic on its own, with the file as written. -/
def display (d : Diagnostic) : Text :=
  match d.file with
  | some f => d.place f.text ++ d.headline
  | none => d.headline

/-- One line a diagnostic. -/
def plain (ds : List Diagnostic) (cwd : Path) : Text :=
  ds.flatMap fun d =>
    let before : Text :=
      match d.file with
      | some f => d.place (displayPath f cwd)
      | none => ""
    before ++ d.headline ++ "\n"

/-! ## The colored form -/

def escape (code : Text) : Text := Char.ofNat 27 :: '[' :: (code ++ "m")

def reset : Text := escape "0"
def cyan : Text := escape "96"
def yellow : Text := escape "93"
def grey : Text := escape "90"
def inverse : Text := escape "7"

def Category.color : Category → Text
  | error => escape "91"
  | warning => escape "93"
  | suggestion => escape "90"
  | message => escape "94"

/-- The source line a diagnostic points at, if the file can be had and has that line. -/
def context? (sourceOf : Path → Option Text) (d : Diagnostic) : Option (Position × Text) := do
  let file ← d.file
  let start ← d.start
  let source ← sourceOf file
  let line ← (Text.lines source)[start.line]?
  some (start, line)

/-- The source line under its number and, below it, the marked stretch. -/
def contextLines (d : Diagnostic) (start : Position) (line : Text) : Text :=
  let number := Position.shown start.line
  let marks := List.replicate (max (d.length.getD 1) 1) '~'
  "\n" ++ inverse ++ number ++ reset ++ " " ++ line ++ "\n" ++
    inverse ++ List.replicate number.length ' ' ++ reset ++ " " ++
    List.replicate start.character ' ' ++ d.category.color ++ marks ++ reset ++ "\n\n"

/-- All diagnostics in color, each with the source line it points at. -/
def pretty (ds : List Diagnostic) (cwd : Path) (sourceOf : Path → Option Text) : Text :=
  ds.flatMap fun d =>
    let at_ : Text :=
      match d.start with
      | some p =>
        ":" ++ yellow ++ Position.shown p.line ++ reset ++ ":" ++ yellow ++
          Position.shown p.character ++ reset
      | none => ""
    let before : Text :=
      match d.file with
      | some f => cyan ++ displayPath f cwd ++ reset ++ at_ ++ " - "
      | none => ""
    let after : Text :=
      match d.context? sourceOf with
      | some (start, line) => d.contextLines start line
      | none => ""
    before ++ d.category.color ++ d.category.text ++ reset ++ grey ++ " TS" ++
      Text.ofNat d.code ++ ":" ++ reset ++ " " ++ d.message ++ "\n" ++ after

end Diagnostic
end TestTransform

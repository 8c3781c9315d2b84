/-
JSON with comments and trailing commas.

Both are taken out of the text before it is read.  A line comment ends in front of its
line feed; a block comment leaves its line feeds, and one that is never closed reaches
to the end.  A comma is taken out when the next character that is not white space
closes an array or an object.  Strings are passed over untouched.
-/
import TestTransform.Json.Form

namespace TestTransform
namespace Json
namespace Relaxed

/-- Where a scan of the text stands. -/
inductive Zone where
  | plain
  | string
  | escaped
  | lineComment
  | blockComment
  deriving DecidableEq, Repr

/-- The zone behind a character of a string. -/
def Zone.inString (c : Char) : Zone :=
  if c == '\\' then .escaped else if c == '"' then .plain else .string

/-- Takes the comments out of a text that begins in the given zone. -/
def dropComments : Zone → Text → Text
  | _, [] => []
  | .lineComment, c :: rest =>
    if c == '\n' then c :: dropComments .plain rest else dropComments .lineComment rest
  | .blockComment, '*' :: '/' :: rest => dropComments .plain rest
  | .blockComment, c :: rest =>
    if c == '\n' then c :: dropComments .blockComment rest else dropComments .blockComment rest
  | .string, c :: rest => c :: dropComments (.inString c) rest
  | .escaped, c :: rest => c :: dropComments .string rest
  | .plain, '/' :: '/' :: rest => dropComments .lineComment rest
  | .plain, '/' :: '*' :: rest => dropComments .blockComment rest
  | .plain, c :: rest => c :: dropComments (if c == '"' then .string else .plain) rest

/-- Whether the next character that is not white space closes an array or an object. -/
def closes (t : Text) : Bool :=
  match t.find? fun c => !Text.isBlank c with
  | some c => c == '}' || c == ']'
  | none => false

/-- Takes the commas in front of closing brackets out. -/
def dropTrailingCommas : Zone → Text → Text
  | _, [] => []
  | .string, c :: rest => c :: dropTrailingCommas (.inString c) rest
  | .escaped, c :: rest => c :: dropTrailingCommas .string rest
  | _, c :: rest =>
    if c == '"' then c :: dropTrailingCommas .string rest
    else if c == ',' && closes rest then dropTrailingCommas .plain rest
    else c :: dropTrailingCommas .plain rest

/-- The plain JSON text that a relaxed text stands for. -/
def toPlain (t : Text) : Text := dropTrailingCommas .plain (dropComments .plain t)

/-- The canonical value of a relaxed text. -/
def ofText? (t : Text) : Option Json := Json.ofText? (toPlain t)

end Relaxed
end Json
end TestTransform

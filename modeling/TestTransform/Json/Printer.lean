/-
Writing JSON: the compact form, and a form with line breaks and indentation.

Text is written as it is, except for the quote, the backslash and the characters below
the space.  Fields are written in the order of the value.
-/
import TestTransform.Json.Value

namespace TestTransform
namespace Json

/-! ## Strings -/

/-- A character inside a string. -/
def escape (c : Char) : Text :=
  if c == '"' then "\\\""
  else if c == '\\' then "\\\\"
  else if c == '\n' then "\\n"
  else if c == '\r' then "\\r"
  else if c == '\t' then "\\t"
  else if c.toNat == 8 then "\\b"
  else if c.toNat == 12 then "\\f"
  else if c.toNat < 32 then
    "\\u00" ++ [Nat.digitChar (c.toNat / 16), Nat.digitChar (c.toNat % 16)]
  else [c]

def quoted (t : Text) : Text := '"' :: (t.flatMap escape ++ ['"'])

/-! ## The compact form -/

mutual

/-- The value on one line without blanks. -/
def compact : Json → Text
  | .null => "null"
  | .bool b => if b then "true" else "false"
  | .num n => n.text
  | .str t => quoted t
  | .arr [] => "[]"
  | .arr (x :: xs) => '[' :: (compact x ++ compactItems xs)
  | .obj [] => "\x7b\x7d"
  | .obj ((k, x) :: xs) => '{' :: (quoted k ++ ':' :: (compact x ++ compactFields xs))

/-- Further items and the closing bracket. -/
def compactItems : List Json → Text
  | [] => "]"
  | x :: xs => ',' :: (compact x ++ compactItems xs)

/-- Further fields and the closing brace. -/
def compactFields : Fields → Text
  | [] => "\x7d"
  | (k, x) :: xs => ',' :: (quoted k ++ ':' :: (compact x ++ compactFields xs))

end

/-! ## The indented form -/

def newline (depth : Nat) : Text := '\n' :: List.replicate (2 * depth) ' '

mutual

/-- The value with every item and field on a line of its own, two blanks a level. -/
def indented (depth : Nat) : Json → Text
  | .arr (x :: xs) =>
    '[' :: (newline (depth + 1) ++ (indented (depth + 1) x ++ indentedItems depth xs))
  | .obj ((k, x) :: xs) =>
    '{' :: (newline (depth + 1) ++ (quoted k ++ (": " ++
      (indented (depth + 1) x ++ indentedFields depth xs))))
  | .null => "null"
  | .bool b => if b then "true" else "false"
  | .num n => n.text
  | .str t => quoted t
  | .arr [] => "[]"
  | .obj [] => "\x7b\x7d"

def indentedItems (depth : Nat) : List Json → Text
  | [] => newline depth ++ "]"
  | x :: xs =>
    ',' :: (newline (depth + 1) ++ (indented (depth + 1) x ++ indentedItems depth xs))

def indentedFields (depth : Nat) : Fields → Text
  | [] => newline depth ++ "\x7d"
  | (k, x) :: xs =>
    ',' :: (newline (depth + 1) ++ (quoted k ++ (": " ++
      (indented (depth + 1) x ++ indentedFields depth xs))))

end

end Json
end TestTransform

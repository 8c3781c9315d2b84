/-
The grammar of JSON text.

Reading takes two steps.  The first, here, finds the form of a text: which brackets,
strings and numerals stand where.  It knows no limit of depth, no largest number and no
half of a surrogate pair, because a reader that skips a field checks only this much.
The second step, `Form.value?`, gives the form a value and checks the rest.
-/
import TestTransform.Json.Value

namespace TestTransform
namespace Json

/-- One written character of a string: itself, or a `\u` escape with its number. -/
inductive Letter where
  | char (c : Char)
  | unit (n : Nat)
  deriving DecidableEq, Repr, Inhabited

inductive Form where
  | null
  | bool (value : Bool)
  | num (numeral : Numeral)
  | str (letters : List Letter)
  | arr (items : List Form)
  | obj (fields : List (List Letter × Form))
  deriving Repr, Inhabited

namespace Form

/-! ## Tokens -/

def isSpace (c : Char) : Bool := c == ' ' || c == '\n' || c == '\t' || c == '\r'

def skip (t : Text) : Text := t.dropWhile isSpace

def hexValue? (c : Char) : Option Nat :=
  let n := c.toNat
  if 48 ≤ n && n ≤ 57 then some (n - 48)
  else if 65 ≤ n && n ≤ 70 then some (n - 55)
  else if 97 ≤ n && n ≤ 102 then some (n - 87)
  else none

/-- The number of four hexadecimal digits. -/
def hex4? (a b c d : Char) : Option Nat := do
  let a ← hexValue? a
  let b ← hexValue? b
  let c ← hexValue? c
  let d ← hexValue? d
  some (((a * 16 + b) * 16 + c) * 16 + d)

/-- The character a one-letter escape stands for. -/
def simpleEscape? (c : Char) : Option Char :=
  if c == '"' then some '"'
  else if c == '\\' then some '\\'
  else if c == '/' then some '/'
  else if c == 'b' then some (Char.ofNat 8)
  else if c == 'f' then some (Char.ofNat 12)
  else if c == 'n' then some '\n'
  else if c == 'r' then some '\r'
  else if c == 't' then some '\t'
  else none

/-- The letters up to the closing quote, and what follows it. -/
def string? : Text → Option (List Letter × Text)
  | [] => none
  | '"' :: rest => some ([], rest)
  | '\\' :: 'u' :: a :: b :: c :: d :: rest => do
    let n ← hex4? a b c d
    let (letters, rest) ← string? rest
    some (.unit n :: letters, rest)
  | '\\' :: c :: rest => do
    let c ← simpleEscape? c
    let (letters, rest) ← string? rest
    some (.char c :: letters, rest)
  | c :: rest =>
    if c.toNat < 32 || c == '\\' then none
    else do
      let (letters, rest) ← string? rest
      some (.char c :: letters, rest)

/-- A run of digits and what follows it. -/
def digits (t : Text) : Text × Text := (t.takeWhile Text.isDigit, t.dropWhile Text.isDigit)

/-- A fraction behind its point, if there is a point. -/
def fraction? : Text → Option (Option Text × Text)
  | '.' :: rest =>
    match digits rest with
    | ([], _) => none
    | (ds, rest) => some (some ds, rest)
  | t => some (none, t)

/-- The digits of an exponent behind its sign. -/
def exponentDigits? (minus : Bool) (t : Text) : Option (Option (Bool × Text) × Text) :=
  match digits t with
  | ([], _) => none
  | (ds, rest) => some (some (minus, ds), rest)

/-- An exponent behind its letter, if there is one. -/
def exponent? : Text → Option (Option (Bool × Text) × Text)
  | c :: rest =>
    if c == 'e' || c == 'E' then
      match rest with
      | '+' :: rest => exponentDigits? false rest
      | '-' :: rest => exponentDigits? true rest
      | rest => exponentDigits? false rest
    else some (none, c :: rest)
  | [] => some (none, [])

/-- The digits in front of the point; a zero in front of other digits is refused. -/
def whole? (t : Text) : Option (Text × Text) :=
  match digits t with
  | ([], _) => none
  | ('0' :: _ :: _, _) => none
  | (ds, rest) => some (ds, rest)

def numeral? (t : Text) : Option (Numeral × Text) := do
  let (negative, t) := match t with
    | '-' :: rest => (true, rest)
    | t => (false, t)
  let (whole, t) ← whole? t
  let (fraction, t) ← fraction? t
  let (exponent, t) ← exponent? t
  some (⟨negative, whole, fraction, exponent⟩, t)

/-! ## Values

Each call passes at least one character before it calls again, so fuel beyond the
length of the text is never used up. -/

mutual

/-- The form at the beginning of a text, and what follows it. -/
def parse? : (fuel : Nat) → Text → Option (Form × Text)
  | 0, _ => none
  | fuel + 1, t =>
    match skip t with
    | '{' :: rest =>
      match skip rest with
      | '}' :: rest => some (.obj [], rest)
      | rest => (fields? fuel rest).map fun (fs, rest) => (.obj fs, rest)
    | '[' :: rest =>
      match skip rest with
      | ']' :: rest => some (.arr [], rest)
      | rest => (items? fuel rest).map fun (xs, rest) => (.arr xs, rest)
    | '"' :: rest => (string? rest).map fun (s, rest) => (.str s, rest)
    | 'n' :: 'u' :: 'l' :: 'l' :: rest => some (.null, rest)
    | 't' :: 'r' :: 'u' :: 'e' :: rest => some (.bool true, rest)
    | 'f' :: 'a' :: 'l' :: 's' :: 'e' :: rest => some (.bool false, rest)
    | t => (numeral? t).map fun (n, rest) => (.num n, rest)

/-- Items separated by commas up to the closing bracket. -/
def items? : (fuel : Nat) → Text → Option (List Form × Text)
  | 0, _ => none
  | fuel + 1, t =>
    match parse? fuel t with
    | none => none
    | some (x, rest) =>
      match skip rest with
      | ',' :: rest => (items? fuel rest).map fun (xs, rest) => (x :: xs, rest)
      | ']' :: rest => some ([x], rest)
      | _ => none

/-- Fields separated by commas up to the closing brace. -/
def fields? : (fuel : Nat) → Text → Option (List (List Letter × Form) × Text)
  | 0, _ => none
  | fuel + 1, t =>
    match skip t with
    | '"' :: rest =>
      match string? rest with
      | none => none
      | some (name, rest) =>
        match skip rest with
        | ':' :: rest =>
          match parse? fuel rest with
          | none => none
          | some (x, rest) =>
            match skip rest with
            | ',' :: rest => (fields? fuel rest).map fun (fs, rest) => ((name, x) :: fs, rest)
            | '}' :: rest => some ([(name, x)], rest)
            | _ => none
        | _ => none
    | _ => none

end

/-- The form of a whole text. -/
def ofText? (t : Text) : Option Form :=
  match parse? (t.length + 1) t with
  | some (form, rest) => if skip rest == [] then some form else none
  | none => none

/-! ## The value of a form -/

/-- The text of a string.  A high surrogate and the low one behind it make one
character; half a pair makes none. -/
def text? : List Letter → Option Text
  | [] => some []
  | .char c :: rest => (text? rest).map (c :: ·)
  | .unit n :: rest =>
    if n < 0xD800 || 0xDFFF < n then (text? rest).map (Char.ofNat n :: ·)
    else if 0xDC00 ≤ n then none
    else
      match rest with
      | .unit m :: rest =>
        if 0xDC00 ≤ m && m ≤ 0xDFFF then
          (text? rest).map (Char.ofNat (0x10000 + (n - 0xD800) * 1024 + (m - 0xDC00)) :: ·)
        else none
      | _ => none

mutual

/-- The value of a form whose brackets nest at most `depth` deep. -/
def value? (depth : Nat) : Form → Option Json
  | .null => some .null
  | .bool b => some (.bool b)
  | .num n => n.value?.map .num
  | .str s => (text? s).map .str
  | .arr xs =>
    match depth with
    | 0 => none
    | depth + 1 => (itemValues? depth xs).map .arr
  | .obj fs =>
    match depth with
    | 0 => none
    | depth + 1 => (fieldValues? depth fs).map .obj

def itemValues? (depth : Nat) : List Form → Option (List Json)
  | [] => some []
  | x :: xs =>
    match value? depth x, itemValues? depth xs with
    | some v, some vs => some (v :: vs)
    | _, _ => none

def fieldValues? (depth : Nat) : List (List Letter × Form) → Option Fields
  | [] => some []
  | (name, x) :: fs =>
    match text? name, value? depth x, fieldValues? depth fs with
    | some k, some v, some vs => some ((k, v) :: vs)
    | _, _, _ => none

end

/-- How deep brackets may nest in a text. -/
def maxDepth : Nat := 127

end Form

/-! ## Reading -/

/-- The value of a text with its fields as written. -/
def ofTextRaw? (t : Text) : Option Json := (Form.ofText? t).bind (Form.value? Form.maxDepth)

/-- The canonical value of a text. -/
def ofText? (t : Text) : Option Json := (ofTextRaw? t).map canon

/-- The fields of an object form under the given names; the other fields are passed over
without looking at their values.  A form that is no object is read as a whole. -/
def knownFields? (depth : Nat) (names : List Text) : Form → Option Json
  | .obj fs =>
    match depth with
    | 0 => none
    | depth + 1 =>
      let rec go : List (List Letter × Form) → Option Fields
        | [] => some []
        | (name, x) :: fs =>
          match Form.text? name with
          | none => none
          | some k =>
            if names.contains k then
              match Form.value? depth x, go fs with
              | some v, some vs => some ((k, v) :: vs)
              | _, _ => none
            else go fs
      (go fs).map .obj
  | form => form.value? depth

end Json
end TestTransform

/-
Text as the rest of the library handles it: a list of characters.

Paths, option names, sources and messages are all lists, so that each function on
them recurses on the data it reads and a statement about it is an induction on that
data.  A character is a Unicode scalar value; where a format counts bytes, the count
goes through `TestTransform.Text.Utf8`.
-/

namespace TestTransform

/-- A text is the list of its characters. -/
abbrev Text := List Char

namespace Text

/-- String literals stand for the text they spell. -/
instance : Coe String Text := ⟨String.toList⟩

/-! ## Order

Texts are ordered by code point, which for UTF-8 is also the order of their bytes. -/

/-- Compares two texts character by character; a proper beginning comes first. -/
def cmp : Text → Text → Ordering
  | [], [] => .eq
  | [], _ :: _ => .lt
  | _ :: _, [] => .gt
  | a :: s, b :: t =>
    if a.toNat < b.toNat then .lt
    else if b.toNat < a.toNat then .gt
    else cmp s t

/-! ## White space -/

/-- The Unicode property White_Space. -/
def isBlank (c : Char) : Bool :=
  let n := c.toNat
  (9 ≤ n && n ≤ 13) || n == 0x20 || n == 0x85 || n == 0xA0 || n == 0x1680 ||
    (0x2000 ≤ n && n ≤ 0x200A) || n == 0x2028 || n == 0x2029 || n == 0x202F ||
    n == 0x205F || n == 0x3000

def trimStart (t : Text) : Text := t.dropWhile isBlank

/-- Drops the longest blank ending. -/
def trimEnd : Text → Text
  | [] => []
  | c :: t =>
    match trimEnd t with
    | [] => if isBlank c then [] else [c]
    | r => c :: r

def trim (t : Text) : Text := trimEnd (trimStart t)

/-! ## Beginnings, endings and searching -/

/-- What follows `head` in a text that begins with it. -/
def dropPrefix? : (head : Text) → Text → Option Text
  | [], t => some t
  | _ :: _, [] => none
  | a :: s, b :: t => if a == b then dropPrefix? s t else none

def startsWith (t head : Text) : Bool := (dropPrefix? head t).isSome

def endsWith (t ending : Text) : Bool := startsWith t.reverse ending.reverse

/-- Whether `part` occurs somewhere in the text. -/
def occursIn (part : Text) : Text → Bool
  | [] => part.isEmpty
  | c :: t => startsWith (c :: t) part || occursIn part t

/-- Everything in front of the last occurrence of `part`, with what begins there. -/
def splitAtLast? (part : Text) : Text → Option (Text × Text)
  | [] => if part.isEmpty then some ([], []) else none
  | c :: t =>
    match splitAtLast? part t with
    | some (before, rest) => some (c :: before, rest)
    | none => if startsWith (c :: t) part then some ([], c :: t) else none

/-- The number of times `c` occurs. -/
def countOf (c : Char) (t : Text) : Nat := t.count c

/-! ## Cutting and joining -/

/-- The pieces between the occurrences of `sep`; there is always at least one. -/
def splitOn (sep : Char) : Text → List Text
  | [] => [[]]
  | c :: t =>
    if c == sep then [] :: splitOn sep t
    else
      match splitOn sep t with
      | [] => [[c]]
      | p :: ps => (c :: p) :: ps

/-- Cuts at each occurrence of `sep`, found from left to right without overlap.
`skip` counts the characters of a found occurrence that are still to be passed. -/
def splitOnText.go (sep : Text) : Nat → Text → List Text
  | _, [] => [[]]
  | skip + 1, _ :: t => go sep skip t
  | 0, c :: t =>
    if !sep.isEmpty && startsWith (c :: t) sep then [] :: go sep (sep.length - 1) t
    else
      match go sep 0 t with
      | [] => [[c]]
      | p :: ps => (c :: p) :: ps

def splitOnText (sep : Text) (t : Text) : List Text := splitOnText.go sep 0 t

/-- The texts one after another with `sep` between two of them. -/
def join (sep : Text) : List Text → Text
  | [] => []
  | [t] => t
  | t :: ts => t ++ sep ++ join sep ts

/-- Puts `new` in place of every occurrence of `old`. -/
def replace (old new : Text) (t : Text) : Text := join new (splitOnText old t)

/-- Puts the character `new` in place of `old`. -/
def replaceChar (old new : Char) (t : Text) : Text := t.map fun c => if c == old then new else c

/-- The lines of a text.  A line feed ends a line, together with a carriage return in
front of it; an empty last line is not counted. -/
def lines : Text → List Text
  | [] => []
  | c :: t =>
    if c == '\n' then [] :: lines t
    else if c == '\r' && t.head? == some '\n' then lines t
    else
      match lines t with
      | [] => [[c]]
      | l :: ls => (c :: l) :: ls

/-! ## Numbers and letters -/

/-- The decimal digits of a number. -/
def ofNat (n : Nat) : Text := Nat.toDigits 10 n

def isDigit (c : Char) : Bool := 48 ≤ c.toNat && c.toNat ≤ 57

def digitValue (c : Char) : Nat := c.toNat - 48

/-- The number that a list of decimal digits spells. -/
def digitsValue (t : Text) : Nat := t.foldl (fun n c => 10 * n + digitValue c) 0

/-- Lower case for the letters `A` to `Z` alone. -/
def lowerAscii (c : Char) : Char :=
  if 65 ≤ c.toNat && c.toNat ≤ 90 then Char.ofNat (c.toNat + 32) else c

end Text
end TestTransform

/-
Reading patterns as users write them.

The notation has groups, alternatives, greedy and lazy repetitions, bracketed classes
with set operations, escapes and flags.  There are no back references and no look-around;
they are refused like every other text that is no pattern.
-/
import TestTransform.Pattern.Term
import TestTransform.Character.Derived

namespace TestTransform
namespace Pattern

/-- What is left of the text, and what was seen so far. -/
structure Reader where
  rest : Text
  /-- Whether blanks and comments are passed over. -/
  verbose : Bool := false
  groups : Nat := 0
  names : List Text := []

namespace Reader

def drop (r : Reader) (n : Nat) : Reader := { r with rest := r.rest.drop n }

/-- Passes blanks and comments. -/
def skipFrom : (inComment : Bool) → Text → Text
  | _, [] => []
  | true, c :: rest => skipFrom (c != '\n') rest
  | false, c :: rest =>
    if c == '#' then skipFrom true rest
    else if Text.isBlank c then skipFrom false rest
    else c :: rest

/-- Passes blanks and comments if the pattern is verbose. -/
def skip (r : Reader) : Reader := if r.verbose then { r with rest := skipFrom false r.rest } else r

/-- Passes one character and the blanks and comments behind it. -/
def next (r : Reader) : Reader := (r.drop 1).skip

/-- The first character that is neither blank nor the sign of a comment. -/
def firstVisible? : (inComment : Bool) → Text → Option Char
  | _, [] => none
  | inComment, c :: rest =>
    if Text.isBlank c then firstVisible? inComment rest
    else if !inComment && c == '#' then firstVisible? true rest
    else some c

/-- The character behind the current one.  In verbose patterns it is looked for behind blanks
and, if a comment begins there, inside the comment. -/
def peek (r : Reader) : Option Char :=
  let behind := r.rest.drop 1
  if r.verbose then (firstVisible? false behind).or behind.head? else behind.head?

end Reader

/-! ## Numbers of characters -/

def hexDigit? (c : Char) : Option Nat :=
  let n := c.toNat
  if 48 ≤ n && n ≤ 57 then some (n - 48)
  else if 65 ≤ n && n ≤ 70 then some (n - 55)
  else if 97 ≤ n && n ≤ 102 then some (n - 87)
  else none

/-- The character with a number, unless the number is no scalar value. -/
def scalar? (n : Nat) : Option Char :=
  if n < 0xD800 || (0xDFFF < n && n ≤ 0x10FFFF) then some (Char.ofNat n) else none

/-- A number of that many hexadecimal digits. -/
def hexDigits? : (count : Nat) → (value : Nat) → Reader → Option (Nat × Reader)
  | 0, value, r => some (value, r)
  | count + 1, value, r =>
    match r.rest with
    | [] => none
    | c :: _ => (hexDigit? c).bind fun d => hexDigits? count (16 * value + d) r.next

/-- A number of any number of digits, at least one, up to a closing brace.  `value` is that
of the digits read so far. -/
def hexBraced? : (fuel : Nat) → (value : Option Nat) → Reader → Option (Nat × Reader)
  | 0, _, _ => none
  | fuel + 1, value, r =>
    match r.rest with
    | [] => none
    | '}' :: _ => value.map fun n => (n, r.next)
    | c :: _ =>
      (hexDigit? c).bind fun d => hexBraced? fuel (some (16 * value.getD 0 + d)) r.next

/-- The character of `count` hexadecimal digits, or of any number of them in braces, behind
the letter that announces it.  Two digits alone may mean a byte. -/
def hexEscape? (count : Nat) (r : Reader) : Option (Letter × Reader) :=
  let r := r.next
  match r.rest with
  | '{' :: rest =>
    (hexBraced? (rest.length + 1) none r.next).bind fun (n, r) =>
      (scalar? n).map fun c => (⟨c, false⟩, r)
  | _ =>
    (hexDigits? count 0 r).bind fun (n, r) => (scalar? n).map fun c => (⟨c, count == 2⟩, r)

/-! ## Escapes -/

/-- What an escape stands for. -/
inductive Escape where
  | letter (a : Letter)
  | boundary (b : Boundary)
  | shorthand (s : Shorthand) (negated : Bool)
  | property (p : PropertyName) (negated : Bool)

/-- Whether a backslash in front of a character is allowed to mean the character. -/
def isEscapable (c : Char) : Bool :=
  c.toNat < 128 && !c.isAlphanum && c != '<' && c != '>'

/-- The letters up to a character of another kind. -/
def lettersWhile (allowed : Char → Bool) : (fuel : Nat) → Reader → Text × Reader
  | 0, r => ([], r)
  | fuel + 1, r =>
    match r.rest with
    | c :: _ =>
      if allowed c then
        let (t, r) := lettersWhile allowed fuel r.next
        (c :: t, r)
      else ([], r)
    | [] => ([], r)

/-- Splits a text at the first place where `sep` stands. -/
def cutAt? (sep : Text) (t : Text) : Option (Text × Text) :=
  match Text.splitOnText sep t with
  | name :: _ :: _ => some (name, t.drop (name.length + sep.length))
  | _ => none

/-- What is written in the braces of a property.  An inequality means the same as an
equation. -/
def propertyName (t : Text) : PropertyName :=
  match (["!=".toList, ":".toList, "=".toList] : List Text).findSome? fun sep => cutAt? sep t with
  | some (name, value) => .valued name value
  | none => .alone t

/-- A property behind the letter that announces it: one letter or a name in braces. -/
def property? (r : Reader) : Option (PropertyName × Reader) :=
  let r := r.next
  match r.rest with
  | [] => none
  | '\\' :: _ => none
  | '{' :: rest =>
    let (name, r) := lettersWhile (fun c => c != '}') rest.length r.next
    match r.rest with
    | '}' :: rest => some (propertyName name, { r with rest })
    | _ => none
  | c :: rest => some (.alone [c], { r with rest })

/-- Letters that may name a kind of word edge. -/
def isEdgeLetter (c : Char) : Bool := c.isAlpha || c == '-'

/-- The kinds of word edges that have a name. -/
def edgeNames : List (Text × Boundary) :=
  [("start", .wordStart), ("end", .wordEnd), ("start-half", .beforeWord), ("end-half", .afterWord)]

/-- The kind of word edge named in braces behind `\b`; other braces are left alone. -/
def wordEdge? (r : Reader) : Option (Boundary × Reader) :=
  match r.rest with
  | '{' :: rest =>
    let inner := r.next
    match inner.rest with
    | [] => none
    | c :: _ =>
      if isEdgeLetter c then
        let (name, r) := lettersWhile isEdgeLetter rest.length inner
        match r.rest with
        | '}' :: rest =>
          (edgeNames.find? fun e => e.1 == name).map fun e => (e.2, { r with rest })
        | _ => none
      else some (.wordEdge, r)
  | _ => some (.wordEdge, r)

/-- An escape behind its backslash. -/
def escape? (r : Reader) : Option (Escape × Reader) :=
  let behind := r.drop 1
  let char (n : Nat) : Option (Escape × Reader) := some (.letter ⟨Char.ofNat n, false⟩, behind)
  let number (count : Nat) : Option (Escape × Reader) :=
    (hexEscape? count r).map fun (a, r) => (.letter a, r)
  let set (s : Shorthand) (negated : Bool) : Option (Escape × Reader) :=
    some (.shorthand s negated, behind)
  let property (negated : Bool) : Option (Escape × Reader) :=
    (property? r).map fun (p, r) => (.property p negated, r)
  match r.rest with
  | [] => none
  | c :: _ =>
    match c with
    | 'd' => set .digit false
    | 'D' => set .digit true
    | 's' => set .blank false
    | 'S' => set .blank true
    | 'w' => set .word false
    | 'W' => set .word true
    | 'p' => property false
    | 'P' => property true
    | 'x' => number 2
    | 'u' => number 4
    | 'U' => number 8
    | 'a' => char 7
    | 'f' => char 12
    | 't' => char 9
    | 'n' => char 10
    | 'r' => char 13
    | 'v' => char 11
    | 'A' => some (.boundary .textStart, behind)
    | 'z' => some (.boundary .textEnd, behind)
    | 'b' => (wordEdge? behind).map fun (b, r) => (.boundary b, r)
    | 'B' => some (.boundary .notWordEdge, behind)
    | '<' => some (.boundary .wordStart, behind)
    | '>' => some (.boundary .wordEnd, behind)
    | c => if isEscapable c then some (.letter ⟨c, false⟩, behind) else none

/-! ## Classes -/

/-- The named classes of ASCII. -/
def asciiClasses : List (Text × CharSet) :=
  [ ("alnum", .union (.union (.between '0' '9') (.between 'A' 'Z')) (.between 'a' 'z')),
    ("alpha", .union (.between 'A' 'Z') (.between 'a' 'z')),
    ("ascii", .range 0 127),
    ("blank", .ofText " \t"),
    ("cntrl", .union (.range 0 31) (.range 127 127)),
    ("digit", .between '0' '9'),
    ("graph", .range 33 126),
    ("lower", .between 'a' 'z'),
    ("print", .range 32 126),
    ("punct", .union (.union (.range 33 47) (.range 58 64)) (.union (.range 91 96) (.range 123 126))),
    ("space", .blank true),
    ("upper", .between 'A' 'Z'),
    ("word", .word true),
    ("xdigit", .union (.union (.between '0' '9') (.between 'A' 'F')) (.between 'a' 'f')) ]

/-- A named class such as `[:alpha:]` behind its first bracket. -/
def namedClass? (t : Text) : Option (SetTerm × Text) :=
  match t with
  | ':' :: rest =>
    let (negated, rest) := match rest with
      | '^' :: rest => (true, rest)
      | rest => (false, rest)
    let name := rest.takeWhile fun c => c != ':'
    match rest.drop name.length with
    | ':' :: ']' :: rest =>
      (asciiClasses.find? fun e => e.1 == name).map fun e => (.ascii e.2 negated, rest)
    | _ => none
  | _ => none

/-- One member of a class. -/
def member? (r : Reader) : Option (Escape × Reader) :=
  match r.rest with
  | [] => none
  | '\\' :: _ => escape? (r.drop 1)
  | c :: _ => some (.letter ⟨c, false⟩, r.drop 1)

/-- A member of a class that stands alone. -/
def Escape.setTerm? : Escape → Option SetTerm
  | letter a => some (.letter a)
  | shorthand s negated => some (.shorthand s negated)
  | property p negated => some (.property p negated)
  | boundary _ => none

/-- A member or a range of characters. -/
def memberOrRange? (r : Reader) : Option (SetTerm × Reader) := do
  let (first, r) ← member? r
  let r := r.skip
  match r.rest with
  | [] => none
  | c :: _ =>
    if c != '-' || r.peek == some ']' || r.peek == some '-' then some (← first.setTerm?, r)
    else
      let (last, r) ← member? r.next
      match first, last with
      | .letter a, .letter b =>
        if a.char.toNat ≤ b.char.toNat then some (.range a b, r) else none
      | _, _ => none

/-- The part of a class to the left of the last operator, with that operator. -/
abbrev Pending := Option (SetTerm × SetOp)

/-- Joins the part read last to what stands to its left. -/
def joinPending (left : Pending) (items : List SetTerm) : SetTerm :=
  let s := SetTerm.ofItems items.reverse
  match left with
  | none => s
  | some (a, op) => .operation op a s

/-- The operator at the beginning of a text. -/
def setOp? : Text → Option SetOp
  | '&' :: '&' :: _ => some .inter
  | '-' :: '-' :: _ => some .diff
  | '~' :: '~' :: _ => some .symmDiff
  | _ => none

def dash : SetTerm := .letter ⟨'-', false⟩

/-- Leading dashes, which stand for themselves. -/
def leadingDashes : (fuel : Nat) → Reader → List SetTerm × Reader
  | 0, r => ([], r)
  | fuel + 1, r =>
    match r.rest with
    | '-' :: _ =>
      let (items, r) := leadingDashes fuel r.next
      (dash :: items, r)
    | _ => ([], r)

/-- What stands at the beginning of a class, from its opening bracket on: whether it is
negated, and the dashes or the closing bracket that stand for themselves there. -/
def classStart (r : Reader) : Bool × List SetTerm × Reader :=
  let r := r.next
  let (negated, r) := match r.rest with
    | '^' :: _ => (true, r.next)
    | _ => (false, r)
  let (dashes, r) := leadingDashes r.rest.length r
  match dashes, r.rest with
  | [], ']' :: _ => (negated, [.letter ⟨']', false⟩], r.next)
  | _, _ => (negated, dashes, r)

mutual

/-- A class from its opening bracket on. -/
def class? : (fuel : Nat) → Reader → Option (SetTerm × Reader)
  | 0, _ => none
  | fuel + 1, r =>
    let (negated, items, r) := classStart r
    (classItems? fuel r none items).map fun (s, r) => (.bracketed negated s, r)

/-- The members of a class up to its closing bracket.  `items` are those read so far, the
last one first. -/
def classItems? : (fuel : Nat) → Reader → Pending → (items : List SetTerm) →
    Option (SetTerm × Reader)
  | 0, _, _, _ => none
  | fuel + 1, r, left, items =>
    let r := r.skip
    match r.rest with
    | [] => none
    | ']' :: rest => some (joinPending left items, { r with rest })
    | '[' :: rest =>
      match namedClass? rest with
      | some (named, rest) => classItems? fuel { r with rest } left (named :: items)
      | none =>
        match class? fuel r with
        | some (inner, r) => classItems? fuel r left (inner :: items)
        | none => none
    | _ =>
      match setOp? r.rest with
      | some op => classItems? fuel (r.drop 2) (some (joinPending left items, op)) []
      | none =>
        match memberOrRange? r with
        | some (item, r) => classItems? fuel r left (item :: items)
        | none => none

end

/-! ## Repetitions -/

def skipBlanks (t : Text) : Text := t.dropWhile Text.isBlank

/-- The blanks that may follow a number. -/
def skipBlanksFrom : (fuel : Nat) → Reader → Reader
  | 0, r => r
  | fuel + 1, r =>
    match r.rest with
    | c :: _ => if Text.isBlank c then skipBlanksFrom fuel r.next else r
    | [] => r

/-- A decimal number with blanks around it. -/
def decimal? (r : Reader) : Option (Nat × Reader) :=
  let r := { r with rest := skipBlanks r.rest }
  let (digits, r) := lettersWhile Text.isDigit r.rest.length r
  let r := skipBlanksFrom r.rest.length r
  let n := Text.digitsValue digits
  if digits ≠ [] && n < Nat.pow 2 32 then some (n, r) else none

/-- How often something is repeated. -/
structure Counts where
  least : Nat
  most : Option Nat

/-- The counts of a repetition from its opening brace on; what follows begins with the
closing brace. -/
def counts? (r : Reader) : Option (Counts × Reader) := do
  let (least, r) ← decimal? r.next
  match r.rest with
  | '}' :: _ => some (⟨least, some least⟩, r)
  | ',' :: _ =>
    let r := r.next
    match r.rest with
    | '}' :: _ => some (⟨least, none⟩, r)
    | _ =>
      let (most, r) ← decimal? r
      match r.rest with
      | '}' :: _ => if least ≤ most then some (⟨least, some most⟩, r) else none
      | _ => none
  | _ => none

/-- A repetition from its operator on, whether it is greedy, and what follows it. -/
def repetition? (r : Reader) : Option (Counts × Bool × Reader) :=
  let finish (counts : Counts) (r : Reader) : Counts × Bool × Reader :=
    match r.rest with
    | '?' :: rest => (counts, false, { r with rest })
    | _ => (counts, true, r)
  match r.rest with
  | '*' :: _ => some (finish ⟨0, none⟩ (r.drop 1))
  | '+' :: _ => some (finish ⟨1, none⟩ (r.drop 1))
  | '?' :: _ => some (finish ⟨0, some 1⟩ (r.drop 1))
  | '{' :: _ => (counts? r).map fun (counts, r) => finish counts r.next
  | _ => none

/-- Whether a character repeats what stands in front of it. -/
def isRepetition (c : Char) : Bool := c == '*' || c == '+' || c == '?' || c == '{'

/-! ## Flags and group names -/

def flag? (c : Char) : Option Flag :=
  match c with
  | 'i' => some .caseless
  | 'm' => some .multiLine
  | 's' => some .dotAll
  | 'U' => some .swapGreed
  | 'u' => some .unicode
  | 'x' => some .verbose
  | 'R' => some .returns
  | _ => none

/-- Flag letters up to `:` or `)`, and whether it is `:`.  No letter may come twice, and a
minus sign only once and not at the end. -/
def flags? (seen : Text) (on : Bool) : Text → Option (Switches × Bool × Text)
  | [] => none
  | c :: rest =>
    if c == ':' || c == ')' then
      if seen.head? == some '-' || (c == ')' && seen == []) then none
      else some ([], c == ':', rest)
    else if seen.contains c then none
    else if c == '-' then flags? ('-' :: seen) false rest
    else
      (flag? c).bind fun f =>
        (flags? (c :: seen) on rest).map fun (changes, more) => ((f, on) :: changes, more)

def isNameStart (c : Char) : Bool := c == '_' || Character.isAlphabetic c

def isNamePart (c : Char) : Bool :=
  isNameStart c || Character.isNumeric c || c == '.' || c == '[' || c == ']'

/-- A group name up to its closing bracket. -/
def groupName? (names : List Text) (t : Text) : Option (Text × Text) :=
  let name := t.takeWhile fun c => c != '>'
  match name, t.drop name.length with
  | c :: rest, '>' :: behind =>
    if isNameStart c && rest.all isNamePart && !names.contains name then some (name, behind) else none
  | _, _ => none

/-! ## Whole patterns -/

/-- Whether switches turn verbose patterns on or off. -/
def verboseIn (changes : Switches) (before : Bool) : Bool :=
  ((changes.find? fun e => e.1 == Flag.verbose).map (·.2)).getD before

/-- A term that is no group and no repetition. -/
def atom? (fuel : Nat) (r : Reader) : Option (Term × Reader) :=
  match r.rest with
  | [] => none
  | '[' :: _ => (class? fuel r).map fun (s, r) => (.set s, r)
  | '.' :: _ => some (.dot, r.drop 1)
  | '^' :: _ => some (.boundary .lineStart, r.drop 1)
  | '$' :: _ => some (.boundary .lineEnd, r.drop 1)
  | '\\' :: _ =>
    (escape? (r.drop 1)).map fun (e, r) =>
      match e with
      | .letter a => (.letter a, r)
      | .boundary b => (.boundary b, r)
      | .shorthand s negated => (.set (.shorthand s negated), r)
      | .property p negated => (.set (.property p negated), r)
  | c :: _ => some (.letter ⟨c, false⟩, r.drop 1)

mutual

/-- Alternatives up to the end of the text or of the group. -/
def alternatives? : (fuel : Nat) → Reader → Option (List Term × Reader)
  | 0, _ => none
  | fuel + 1, r =>
    match concatenation? fuel r [] with
    | none => none
    | some (t, r) =>
      match r.rest with
      | '|' :: rest => (alternatives? fuel { r with rest }).map fun (ts, r) => (t :: ts, r)
      | _ => some ([t], r)

/-- Terms up to the end of the alternative; `terms` are those read so far, the last one
first. -/
def concatenation? : (fuel : Nat) → Reader → (terms : List Term) → Option (Term × Reader)
  | 0, _, _ => none
  | fuel + 1, r, terms =>
    let r := r.skip
    match r.rest with
    | [] => some (Term.inOrder terms.reverse, r)
    | '|' :: _ => some (Term.inOrder terms.reverse, r)
    | ')' :: _ => some (Term.inOrder terms.reverse, r)
    | '(' :: rest =>
      match group? fuel ({ r with rest } : Reader).skip with
      | some (t, r) => concatenation? fuel r (t :: terms)
      | none => none
    | c :: _ =>
      if isRepetition c then
        match terms with
        | [] => none
        | .flags _ :: _ => none
        | t :: before =>
          match repetition? r with
          | some (counts, greedy, r) =>
            concatenation? fuel r (.repeated t counts.least counts.most greedy :: before)
          | none => none
      else
        match atom? fuel r with
        | some (t, r) => concatenation? fuel r (t :: terms)
        | none => none

/-- A group or a setting of flags behind its opening parenthesis. -/
def group? : (fuel : Nat) → Reader → Option (Term × Reader)
  | 0, _ => none
  | fuel + 1, r =>
    let verbose := r.verbose
    let closed (index : Option Nat) (changes : Switches) :
        Option (List Term × Reader) → Option (Term × Reader)
      | some (ts, r) =>
        match r.rest with
        | ')' :: rest => some (.group index changes (Term.oneOf ts), { r with rest, verbose })
        | _ => none
      | none => none
    let n := r.groups + 1
    let named (rest : Text) : Option (Term × Reader) :=
      match groupName? r.names rest with
      | some (name, rest) =>
        closed (some n) []
          (alternatives? fuel { r with rest, groups := n, names := name :: r.names })
      | none => none
    match r.rest with
    | '?' :: '=' :: _ => none
    | '?' :: '!' :: _ => none
    | '?' :: '<' :: '=' :: _ => none
    | '?' :: '<' :: '!' :: _ => none
    | '?' :: 'P' :: '<' :: rest => named rest
    | '?' :: '<' :: rest => named rest
    | '?' :: rest =>
      match flags? [] true rest with
      | some (changes, inGroup, rest) =>
        let inner : Reader := { r with rest, verbose := verboseIn changes verbose }
        if inGroup then closed none changes (alternatives? fuel inner)
        else some (.flags changes, inner)
      | none => none
    | _ => closed (some n) [] (alternatives? fuel { r with groups := n })

end

/-- The term a text spells, if it spells one. -/
def Term.ofText? (t : Text) : Option Term :=
  match alternatives? (4 * t.length + 4) { rest := t } with
  | some (ts, r) => if r.rest == [] then some (Term.oneOf ts) else none
  | none => none

end Pattern
end TestTransform

/-
Patterns of text: character sets, and expressions built from them.
-/
import TestTransform.Character.Word
import TestTransform.Character.Case

namespace TestTransform

/-! ## Character sets -/

/-- A set of characters as it is written between brackets. -/
inductive CharSet where
  /-- All characters between two code points. -/
  | range (first last : Nat)
  /-- All characters in some ranges. -/
  | listed (ranges : Ranges)
  /-- Word characters; of ASCII alone, if so marked. -/
  | word (ascii : Bool)
  | digit (ascii : Bool)
  | blank (ascii : Bool)
  | none
  | union (a b : CharSet)
  | inter (a b : CharSet)
  | diff (a b : CharSet)
  | symmDiff (a b : CharSet)
  | compl (a : CharSet)
  /-- The members and all that differ from one in case alone. -/
  | anyCase (a : CharSet)
  /-- The members and the letters of ASCII that differ from one in case alone. -/
  | anyAsciiCase (a : CharSet)
  deriving DecidableEq, Repr, Inhabited

namespace CharSet

/-- The white space of ASCII. -/
def isAsciiBlank (c : Char) : Bool := c == ' ' || (9 ≤ c.toNat && c.toNat ≤ 13)

def mem : CharSet → Char → Bool
  | range first last, c => first ≤ c.toNat && c.toNat ≤ last
  | listed ranges, c => ranges.mem c.toNat
  | word ascii, c => if ascii then Character.isAsciiWord c else Character.isWord c
  | digit ascii, c => if ascii then c.isDigit else Character.isDecimal c
  | blank ascii, c => if ascii then isAsciiBlank c else Text.isBlank c
  | none, _ => false
  | union a b, c => a.mem c || b.mem c
  | inter a b, c => a.mem c && b.mem c
  | diff a b, c => a.mem c && !b.mem c
  | symmDiff a b, c => a.mem c != b.mem c
  | compl a, c => !a.mem c
  | anyCase a, c => (Character.caseVariantsOf c).any a.mem
  | anyAsciiCase a, c => a.mem c || a.mem (Char.ofNat (Character.otherAsciiCase c.toNat))

/-- The white space characters. -/
def blankRanges : Ranges :=
  [(9, 13), (32, 32), (133, 133), (160, 160), (5760, 5760), (8192, 8202), (8232, 8233),
   (8239, 8239), (8287, 8287), (12288, 12288)]

/-- The members as ranges of code points. -/
def ranges : CharSet → Ranges
  | range first last => if first ≤ last then [(first, last)] else []
  | listed ranges => ranges
  | word ascii => if ascii then [(48, 57), (65, 90), (95, 95), (97, 122)] else Character.wordSet
  | digit ascii => if ascii then [(48, 57)] else Character.decimalSet
  | blank ascii => if ascii then [(9, 13), (32, 32)] else blankRanges
  | none => []
  | union a b => a.ranges.union b.ranges
  | inter a b => a.ranges.inter b.ranges
  | diff a b => a.ranges.diff b.ranges
  | symmDiff a b => a.ranges.symmDiff b.ranges
  | compl a => a.ranges.compl
  | anyCase a => Character.caseClosure a.ranges
  | anyAsciiCase a => Character.asciiCaseClosure a.ranges

/-- The set of one character. -/
def single (c : Char) : CharSet := range c.toNat c.toNat

/-- The set of the characters of a text. -/
def ofText (t : Text) : CharSet := t.foldr (fun c s => union (single c) s) none

/-- All characters between two characters. -/
def between (a b : Char) : CharSet := range a.toNat b.toNat

end CharSet

/-! ## Expressions -/

/-- A condition on a position. -/
inductive Assertion where
  | textStart
  | textEnd
  /-- The beginning of a line.  Lines end in a line feed or, if so marked, also in a carriage
  return or in both together. -/
  | lineStart (returns : Bool)
  | lineEnd (returns : Bool)
  | wordEdge (ascii : Bool)
  | notWordEdge (ascii : Bool)
  | wordStart (ascii : Bool)
  | wordEnd (ascii : Bool)
  | beforeWord (ascii : Bool)
  | afterWord (ascii : Bool)
  deriving DecidableEq, Repr, Inhabited

inductive Pattern where
  | empty
  | one (s : CharSet)
  | assertion (a : Assertion)
  /-- A part whose place is remembered under a number. -/
  | group (index : Nat) (p : Pattern)
  | seq (p q : Pattern)
  | alt (p q : Pattern)
  /-- At least `least` times and at most `most` times, as often or as seldom as possible. -/
  | repeated (p : Pattern) (least : Nat) (most : Option Nat) (greedy : Bool)
  deriving DecidableEq, Repr, Inhabited

namespace Pattern

/-! ## Writing patterns down -/

def literal : Text → Pattern
  | [] => empty
  | [c] => one (.single c)
  | c :: t => seq (one (.single c)) (literal t)

def char (c : Char) : Pattern := one (.single c)

/-- The patterns one after another. -/
def all : List Pattern → Pattern
  | [] => empty
  | [p] => p
  | p :: ps => seq p (all ps)

/-- The first of the patterns that fits. -/
def any : List Pattern → Pattern
  | [] => one .none
  | [p] => p
  | p :: ps => alt p (any ps)

def star (p : Pattern) : Pattern := repeated p 0 none true
def plus (p : Pattern) : Pattern := repeated p 1 none true
def optional (p : Pattern) : Pattern := repeated p 0 (some 1) true
def plusLazy (p : Pattern) : Pattern := repeated p 1 none false

/-- Any number of white space characters. -/
def blanks : Pattern := star (one (.blank false))

/-- At least one white space character. -/
def someBlanks : Pattern := plus (one (.blank false))

/-- Any character but a line feed. -/
def dot : Pattern := one (.compl (.single '\n'))

def start : Pattern := assertion .textStart
def stop : Pattern := assertion .textEnd
def wordEdge : Pattern := assertion (.wordEdge false)

end Pattern
end TestTransform

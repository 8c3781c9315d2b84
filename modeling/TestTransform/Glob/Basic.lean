/-
Globs: patterns for whole paths.

A glob is matched against the bytes of a path's text, so `?` and a class stand for one
byte.  `*` and `?` may stand for a slash unless the glob keeps to segments; `**` between
slashes stands for any number of segments.  What a glob means is said by a pattern over
texts in which each character is a byte.
-/
import TestTransform.Pattern.Match
import TestTransform.Pattern.Meaning
import TestTransform.Text.Utf8
import TestTransform.Path.Basic

namespace TestTransform

namespace Glob

inductive Token where
  | literal (c : Char)
  /-- One byte. -/
  | any
  /-- Any number of bytes. -/
  | zeroOrMore
  /-- `**/` at the beginning: nothing, a slash, or everything up to some slash. -/
  | recursivePrefix
  /-- `/**` at the end: a slash and anything behind it. -/
  | recursiveSuffix
  /-- `/**/` between two parts: a slash, or two slashes with anything between. -/
  | recursiveZeroOrMore
  /-- One byte of a class, given by ranges of characters. -/
  | oneOf (negated : Bool) (ranges : List (Char × Char))
  /-- One of several branches. -/
  | alternates (branches : List (List Token))
  deriving Repr, Inhabited

/-! ## Bytes as characters -/

def byteChar (b : UInt8) : Char := Char.ofNat b.toNat

/-- The bytes of a character. -/
def bytesOf (c : Char) : Text := (String.utf8EncodeChar c).map byteChar

/-- The bytes of a text. -/
def byteText (t : Text) : Text := t.utf8.map byteChar

/-! ## Tokens as terms -/

open Pattern (Term SetTerm Letter)

def letter (c : Char) : Term := .letter ⟨c, false⟩

def slash : Term := letter '/'

def star (t : Term) : Term := .repeated t 0 none true

/-- Any number of bytes, slashes among them. -/
def anything : Term := star .dot

/-- A byte that `*` and `?` stand for. -/
def byteTerm (separated : Bool) : Term :=
  if separated then .set (.bracketed true (.letter ⟨'/', false⟩)) else .dot

/-- Some terms as the alternatives of a group. -/
def choice (ts : List Term) : Term := .group none [] (Term.oneOf ts)

/-- What a range of characters stands for.  A character of several bytes stands for each of
them, and a range runs from the last byte of its first character to the first byte of its
last. -/
def rangeItems (first last : Char) : List SetTerm :=
  let single (c : Char) : SetTerm := .letter ⟨c, false⟩
  let f := bytesOf first
  let l := bytesOf last
  if first == last then f.map single
  else
    f.dropLast.map single ++
      .range ⟨f.getLastD ' ', false⟩ ⟨l.headD ' ', false⟩ :: l.tail.map single

mutual

/-- The terms of a token.  A token without content has none. -/
def Token.terms (separated : Bool) : Token → List Term
  | .literal c => (bytesOf c).map letter
  | .any => [byteTerm separated]
  | .zeroOrMore => [star (byteTerm separated)]
  | .recursivePrefix =>
    [choice [.repeated slash 0 (some 1) true, .concatenation [anything, slash]]]
  | .recursiveSuffix => [slash, anything]
  | .recursiveZeroOrMore => [choice [slash, .concatenation [slash, anything, slash]]]
  | .oneOf negated ranges =>
    [.set (.bracketed negated (SetTerm.ofItems (ranges.flatMap fun r => rangeItems r.1 r.2)))]
  | .alternates branches =>
    match branchTerms separated branches with
    | [] => []
    | ts => [choice ts]

/-- The terms of tokens one after another. -/
def tokenTerms (separated : Bool) : List Token → List Term
  | [] => []
  | t :: ts => t.terms separated ++ tokenTerms separated ts

/-- One term for each branch that has content. -/
def branchTerms (separated : Bool) : List (List Token) → List Term
  | [] => []
  | b :: bs =>
    let rest := branchTerms separated bs
    match tokenTerms separated b with
    | [] => rest
    | ts => Term.inOrder ts :: rest

end

/-- The term of a whole glob.  `**` alone stands for every text. -/
def wholeTerm (separated : Bool) (tokens : List Token) : Term :=
  let body := match tokens with
    | [.recursivePrefix] => [anything]
    | tokens => tokenTerms separated tokens
  .concatenation ([.flags [(.dotAll, true)], .boundary .textStart] ++ body ++ [.boundary .textEnd])

/-! ## Paths without a name -/

/-- The text of tokens that are all literal. -/
def literalText? (tokens : List Token) : Option Text :=
  tokens.mapM fun
    | .literal c => some c
    | _ => none

/-- Whether tokens are a star and a literal text other than a dot. -/
def isStarred : List Token → Bool
  | .zeroOrMore :: rest => (literalText? rest).any fun t => t != ['.']
  | _ => false

/-- Whether a glob that ends in a dot is compared with the end of the whole text.  Others
look at the name of a path first. -/
def comparesEnd (separated : Bool) (tokens : List Token) : Bool :=
  match tokens with
  | .recursivePrefix :: rest =>
    match literalText? rest with
    | some t => t.contains '/'
    | none => !separated && isStarred rest
  | tokens => (literalText? tokens).isSome || (!separated && isStarred tokens)

/-- Whether a glob matches paths that end in `..` and so have no name. -/
def admitsNameless (separated : Bool) (tokens : List Token) : Bool :=
  match tokens.getLast? with
  | some (.literal '.') => comparesEnd separated tokens
  | _ => true

/-- Whether the last component of a path is `..`. -/
def isNameless (t : Text) : Bool :=
  match t.reverse with
  | '.' :: '.' :: rest => rest.head?.all fun c => c == '/'
  | _ => false

end Glob

structure Glob where
  /-- What the glob means, for bytes as characters. -/
  pattern : Pattern
  /-- Whether it matches paths that have no name. -/
  nameless : Bool
  deriving DecidableEq, Repr, Inhabited

namespace Glob

/-- The glob of some tokens, unless they are nested too deeply.  `*` and `?` keep to one
segment if it is `separated`. -/
def ofTokens? (separated : Bool) (tokens : List Token) : Option Glob := do
  let term := wholeTerm separated tokens
  guard (term.depth ≤ Pattern.maxDepth)
  let (pattern, _) ← term.pattern? {}
  some ⟨pattern, admitsNameless separated tokens⟩

/-- Whether a glob matches the whole text. -/
def isMatch (g : Glob) (t : Text) : Bool :=
  (g.nameless || !isNameless t) && g.pattern.isMatch (byteText t)

/-- Whether some glob of a list matches the text of a path. -/
def anyMatch (gs : List Glob) (p : Path) : Bool := gs.any fun g => g.isMatch p.text

end Glob
end TestTransform

/-
Reading globs as users write them.

The reader keeps the tokens of the branch it is in, last token first, and a stack of the
groups around it.  A backslash makes the next character literal.
-/
import TestTransform.Glob.Basic

namespace TestTransform
namespace Glob

/-- A group in braces that is still open: its finished branches, the last one first, and
the tokens in front of it, the last one first. -/
structure OpenGroup where
  branches : List (List Token)
  before : List Token

structure Reader where
  tokens : List Token := []
  groups : List OpenGroup := []
  /-- The character read before the current one. -/
  previous : Option Char := none

namespace Reader

def push (r : Reader) (t : Token) : Reader := { r with tokens := t :: r.tokens }

/-- Closes the group around the current branch. -/
def close? (r : Reader) : Option Reader :=
  match r.groups with
  | [] => none
  | g :: groups =>
    let branches := (r.tokens.reverse :: g.branches).reverse
    some { r with tokens := .alternates branches :: g.before, groups }

/-- Opens a group. -/
def openGroup (r : Reader) : Reader :=
  { r with tokens := [], groups := ⟨[], r.tokens⟩ :: r.groups }

/-- A comma begins the next branch of a group; outside of groups it is literal. -/
def comma (r : Reader) : Reader :=
  match r.groups with
  | [] => r.push (.literal ',')
  | g :: groups =>
    { r with tokens := [], groups := { g with branches := r.tokens.reverse :: g.branches } :: groups }

end Reader

/-! ## Classes -/

/-- The ranges of a class up to its closing bracket, and what follows it.  `open_` says
that a dash was read behind the last range, whose end is still to come. -/
def classRanges? : (first open_ : Bool) → (ranges : List (Char × Char)) → Text →
    Option (List (Char × Char) × Text)
  | _, _, _, [] => none
  | first, open_, ranges, c :: rest =>
    if c == ']' && !first then
      let ranges := if open_ then ('-', '-') :: ranges else ranges
      some (ranges.reverse, rest)
    else if c == '-' && !first && !open_ then classRanges? false true ranges rest
    else if open_ then
      match ranges with
      | (a, _) :: more =>
        if c.toNat < a.toNat then none else classRanges? false false ((a, c) :: more) rest
      | [] => none
    else classRanges? false false ((c, c) :: ranges) rest

/-- A class behind its opening bracket. -/
def class? (t : Text) : Option (Token × Text) :=
  let (negated, t) := match t with
    | '!' :: rest => (true, rest)
    | '^' :: rest => (true, rest)
    | t => (false, t)
  (classRanges? true false [] t).map fun (ranges, rest) => (.oneOf negated ranges, rest)

/-! ## Stars -/

/-- What a double star becomes, and how many characters behind it are used up.  It spans
segments only where it fills a whole segment; elsewhere it is two single stars. -/
def doubleStar (r : Reader) (rest : Text) : Reader × Nat :=
  let plain := (r.push .zeroOrMore).push .zeroOrMore
  let inGroup := !r.groups.isEmpty
  match r.tokens with
  | [] =>
    match rest with
    | [] => (r.push .recursivePrefix, 0)
    | '/' :: _ => (r.push .recursivePrefix, 1)
    | _ => (plain, 0)
  | last :: before =>
    if r.previous != some '/' &&
        (!inGroup || (r.previous != some ',' && r.previous != some '{')) then (plain, 0)
    else
      let span (t : Token) : Reader :=
        match last with
        | .recursivePrefix => r
        | .recursiveSuffix => r
        | _ => { r with tokens := t :: before }
      match rest with
      | [] => (span .recursiveSuffix, 0)
      | '/' :: _ => (span .recursiveZeroOrMore, 1)
      | c :: _ =>
        if inGroup && (c == ',' || c == '}') then (span .recursiveSuffix, 0) else (plain, 0)

/-! ## Whole globs -/

/-- Reads the characters that are left.  The fuel is their number. -/
def read? : (fuel : Nat) → Reader → Text → Option Reader
  | _, r, [] => some r
  | 0, _, _ => none
  | fuel + 1, r, c :: rest =>
    let next (r : Reader) : Reader := { r with previous := some c }
    match c with
    | '?' => read? fuel (next (r.push .any)) rest
    | '*' =>
      match rest with
      | '*' :: rest =>
        let (r, used) := doubleStar r rest
        let previous := if used == 0 then '*' else '/'
        read? fuel { r with previous := some previous } (rest.drop used)
      | _ => read? fuel (next (r.push .zeroOrMore)) rest
    | '[' =>
      match class? rest with
      | some (t, rest) => read? fuel { r.push t with previous := some ']' } rest
      | none => none
    | '{' => read? fuel (next r.openGroup) rest
    | '}' =>
      match r.close? with
      | some r => read? fuel (next r) rest
      | none => none
    | ',' => read? fuel (next r.comma) rest
    | '\\' =>
      match rest with
      | [] => none
      | d :: rest => read? fuel { r.push (.literal d) with previous := some d } rest
    | c => read? fuel (next (r.push (.literal c))) rest

/-- The tokens a text spells, if it spells a glob. -/
def tokens? (t : Text) : Option (List Token) :=
  match read? t.length {} t with
  | some r => if r.groups.isEmpty then some r.tokens.reverse else none
  | none => none

end Glob
end TestTransform

/-
Matching patterns by sets of places.

A text of `n` characters has `n + 1` places, and a set of them is a number whose bit `i`
says whether place `i` belongs.  A pattern turns a set of places into the set of places
from which it leads there, so all ways to match are followed at once and none is tried
twice.  Which match is taken among several is then found by walking forward: wherever
there is a choice, the first way from which the goal can be reached is the one.
-/
import TestTransform.Pattern.Basic

namespace TestTransform
namespace Pattern

/-! ## Places -/

/-- What stands before and after a place. -/
structure Edge where
  before : Option Char
  after : Option Char
  deriving DecidableEq, Repr, Inhabited

/-- The edges of a text in front of which `before` stands. -/
def edgesFrom : (before : Option Char) → Text → List Edge
  | before, [] => [⟨before, none⟩]
  | before, c :: t => ⟨before, some c⟩ :: edgesFrom (some c) t

def edges (t : Text) : List Edge := edgesFrom none t

/-- A set of places: place `i` belongs to it if bit `i` is set. -/
abbrev Places := Nat

/-- The places in one row of edges that satisfy a condition. -/
def placesInRow (condition : Edge → Bool) : List Edge → Places
  | [] => 0
  | e :: es => 2 * placesInRow condition es + (condition e).toNat

/-- The places in as many rows of 32 edges as are needed.  To add a place to a large set is to
copy the set, so it is not done for each edge. -/
def placesInRows (condition : Edge → Bool) : (rows : Nat) → List Edge → Places
  | 0, es => placesInRow condition es
  | rows + 1, es =>
    placesInRow condition (es.take 32) + placesInRows condition rows (es.drop 32) <<< 32

/-- The places whose edges satisfy a condition. -/
def placesWhere (condition : Edge → Bool) (es : List Edge) : Places :=
  placesInRows condition (es.length / 32) es

/-- The places of a set behind a given one. -/
def beyond (i : Nat) (s : Places) : Places := (s >>> (i + 1)) <<< (i + 1)

/-! ## Conditions -/

def isWordIn (ascii : Bool) : Option Char → Bool
  | none => false
  | some c => if ascii then Character.isAsciiWord c else Character.isWord c

/-- Whether a line begins at a place.  Between a carriage return and a line feed none does. -/
def Edge.isLineStart (returns : Bool) (e : Edge) : Bool :=
  match e.before with
  | none => true
  | some c => c == '\n' || (returns && c == '\r' && e.after != some '\n')

def Edge.isLineEnd (returns : Bool) (e : Edge) : Bool :=
  match e.after with
  | none => true
  | some c =>
    if returns then c == '\r' || (c == '\n' && e.before != some '\r') else c == '\n'

/-- Whether a condition holds at a place. -/
def holds (a : Assertion) (e : Edge) : Bool :=
  let word (ascii : Bool) : Bool × Bool := (isWordIn ascii e.before, isWordIn ascii e.after)
  match a with
  | .textStart => e.before.isNone
  | .textEnd => e.after.isNone
  | .lineStart returns => e.isLineStart returns
  | .lineEnd returns => e.isLineEnd returns
  | .wordEdge ascii => (word ascii).1 != (word ascii).2
  | .notWordEdge ascii => (word ascii).1 == (word ascii).2
  | .wordStart ascii => !(word ascii).1 && (word ascii).2
  | .wordEnd ascii => (word ascii).1 && !(word ascii).2
  | .beforeWord ascii => !(word ascii).1
  | .afterWord ascii => !(word ascii).2

/-- Whether a character of a set stands behind a place. -/
def Edge.isBefore (s : CharSet) (e : Edge) : Bool := e.after.any s.mem

/-! ## Patterns laid on a text -/

/-- A pattern laid on a text: each set and each condition is replaced by the places where
it is met. -/
inductive Overlay where
  | empty
  /-- One character from any of the places. -/
  | step (s : Places)
  | check (s : Places)
  | group (index : Nat) (p : Overlay)
  | seq (p q : Overlay)
  | alt (p q : Overlay)
  | repeated (p : Overlay) (least : Nat) (most : Option Nat) (greedy : Bool)
  deriving DecidableEq, Repr, Inhabited

def overlay (es : List Edge) : Pattern → Overlay
  | empty => .empty
  | one s => .step (placesWhere (Edge.isBefore s) es)
  | assertion a => .check (placesWhere (holds a) es)
  | group i p => .group i (overlay es p)
  | seq p q => .seq (overlay es p) (overlay es q)
  | alt p q => .alt (overlay es p) (overlay es q)
  | repeated p least most greedy => .repeated (overlay es p) least most greedy

/-- A step backward `n` times. -/
def times (back : Places → Places) : (n : Nat) → Places → Places
  | 0, s => s
  | n + 1, s =>
    let next := back s
    if next == s then s else times back n next

/-- The places from which at most `n` steps lead to the goal, given those `s` from which
fewer do. -/
def closure (back : Places → Places) (goal : Places) : (n : Nat) → (s : Places) → Places
  | 0, s => s
  | n + 1, s =>
    let next := goal ||| back s
    if next == s then s else closure back goal n next

/-- The places from which up to `n` steps lead to the goal. -/
def within (back : Places → Places) (goal : Places) (n : Nat) : Places := closure back goal n goal

namespace Overlay

/-- The places from which a pattern leads to one of the goal.  No repetition needs more
rounds than the text has places, and `count` is their number. -/
def starts (count : Nat) : Overlay → (goal : Places) → Places
  | empty, goal => goal
  | step s, goal => s &&& (goal >>> 1)
  | check s, goal => s &&& goal
  | group _ p, goal => p.starts count goal
  | seq p q, goal => p.starts count (q.starts count goal)
  | alt p q, goal => p.starts count goal ||| q.starts count goal
  | repeated p least most _, goal =>
    let rounds := match most with
      | none => count
      | some m => m - least
    times (p.starts count) least (within (p.starts count) goal rounds)

end Overlay

/-! ## Routes -/

/-- Whether a pattern leads from a place to itself, if the text allows it. -/
def Overlay.mayStay : Overlay → Bool
  | empty => true
  | step _ => false
  | check _ => true
  | group _ p => p.mayStay
  | seq p q => p.mayStay && q.mayStay
  | alt p q => p.mayStay || q.mayStay
  | repeated p least _ _ => least == 0 || p.mayStay

/-- A pattern laid on a text together with a goal.  Wherever there is a choice, the places
are given from which the first way leads to the goal. -/
inductive Route where
  /-- Stays where it is. -/
  | stay
  | step
  | group (index : Nat) (r : Route)
  | seq (r s : Route)
  /-- The first way from the given places, the second from all others. -/
  | choice (first : Places) (r s : Route)
  /-- Rounds that all get ahead: one more from each of the given places. -/
  | loop (another : Places) (r : Route)
  /-- Rounds that may stay where they are or are counted.  `back` gives the places from which
  one round leads to some goal, and `round` is the route of that round. -/
  | rounds (goal : Places) (back : Places → Places) (round : Places → Route)
      (least : Nat) (most : Option Nat) (greedy : Bool)

namespace Overlay

/-- The route to a goal.  `count` is the number of places. -/
def route (count : Nat) : Overlay → (goal : Places) → Route
  | empty, _ => .stay
  | step _, _ => .step
  | check _, _ => .stay
  | group i p, goal => .group i (p.route count goal)
  | seq p q, goal => .seq (p.route count (q.starts count goal)) (q.route count goal)
  | alt p q, goal => .choice (p.starts count goal) (p.route count goal) (q.route count goal)
  | repeated p least most greedy, goal =>
    let back := p.starts count
    if most == none && least ≤ 1 && !p.mayStay then
      let all := within back goal count
      let round := p.route count all
      let loop := .loop (if greedy then back all else back all - (back all &&& goal)) round
      if least == 0 then loop else .seq round loop
    else if most == some 1 && least == 0 && !p.mayStay then
      if greedy then .choice (back goal) (p.route count goal) .stay
      else .choice goal .stay (p.route count goal)
    else .rounds goal back (p.route count) least most greedy

end Overlay

/-! ## Walking forward -/

/-- A stretch of text by its first character and the one behind its last. -/
structure Extent where
  start : Nat
  stop : Nat
  deriving DecidableEq, Repr, Inhabited

/-- A place on the way and the groups passed so far, the latest first. -/
structure Walker where
  index : Nat
  groups : List (Nat × Extent) := []
  deriving DecidableEq, Repr, Inhabited

/-- Walks the repetitions that must be made.  `goal` is where the others lead from. -/
def walkLeast (back : Places → Places) (go : Places → Walker → Walker) (goal : Places) :
    (n : Nat) → Walker → Walker
  | 0, w => w
  | n + 1, w => walkLeast back go goal n (go (times back n goal) w)

/-- Walks the repetitions that may be made, as many as possible or as few.  `goals` gives the
places from which some further rounds lead to the goal.  A round that does not get ahead is
not made. -/
def walkMore (back : Places → Places) (go : Places → Walker → Walker) (greedy : Bool)
    (goal : Places) (goals : Nat → Places) : (rounds : Nat) → Walker → Walker
  | 0, w => w
  | n + 1, w =>
    let ahead := beyond w.index (goals n)
    let possible := (back ahead).testBit w.index
    if possible && (greedy || !goal.testBit w.index) then
      walkMore back go greedy goal goals n (go ahead w)
    else w

/-- Walks from each of the places `another` on. -/
def walkLoop (another : Places) (go : Walker → Walker) : (fuel : Nat) → Walker → Walker
  | 0, w => w
  | n + 1, w => if another.testBit w.index then walkLoop another go n (go w) else w

/-- Walks a route to its end from a place from which it leads there.  No loop has more rounds
than the text has places, and `count` is their number. -/
def Route.walk (count : Nat) : Route → Walker → Walker
  | stay, w => w
  | step, w => { w with index := w.index + 1 }
  | group i r, w =>
    let w' := r.walk count w
    { w' with groups := (i, ⟨w.index, w'.index⟩) :: w'.groups }
  | seq r s, w => s.walk count (r.walk count w)
  | choice first r s, w => if first.testBit w.index then r.walk count w else s.walk count w
  | loop another r, w => walkLoop another (r.walk count) count w
  | rounds goal back round least most greedy, w =>
    let go (g : Places) : Walker → Walker := (round g).walk count
    match most with
    | none =>
      let all := within back goal count
      walkMore back go greedy goal (fun _ => all) count (walkLeast back go all least w)
    | some m =>
      walkMore back go greedy goal (within back goal) (m - least)
        (walkLeast back go (within back goal (m - least)) least w)

/-! ## Searching -/

structure Match where
  start : Nat
  stop : Nat
  groups : List (Nat × Extent)
  deriving DecidableEq, Repr, Inhabited

/-- The first place of a set among the next `n`. -/
def firstPlace? (s : Places) : (n : Nat) → (i : Nat) → Option Nat
  | 0, _ => none
  | n + 1, i => if s.testBit i then some i else firstPlace? s n (i + 1)

/-- The places of a text where a match begins, the number of all its places, and the route
of the matches, which is made only if there are some. -/
structure Search where
  starts : Places
  count : Nat
  route : Route

namespace Search

/-- All places of a text with that many. -/
def everywhere (count : Nat) : Places := (1 <<< count) - 1

def ofText (p : Pattern) (t : Text) : Search :=
  let es := edges t
  let count := es.length
  let overlay := Pattern.overlay es p
  let goal := everywhere count
  let starts := overlay.starts count goal
  ⟨starts, count, if starts == 0 then .stay else overlay.route count goal⟩

/-- The first match from a place on. -/
def first? (s : Search) (i : Nat) : Option Match :=
  (firstPlace? s.starts (s.count - i) i).map fun start =>
    let w := s.route.walk s.count ⟨start, []⟩
    ⟨start, w.index, w.groups⟩

/-- The matches from a place on, each beginning behind the one before it.  Behind an empty
match the search goes on one character later. -/
def allFrom (s : Search) : (fuel : Nat) → (i : Nat) → List Match
  | 0, _ => []
  | fuel + 1, i =>
    match s.first? i with
    | none => []
    | some m => m :: s.allFrom fuel (if m.stop == m.start then m.stop + 1 else m.stop)

end Search

def search (p : Pattern) (t : Text) : Option Match := (Search.ofText p t).first? 0

/-- Whether the pattern occurs in a text. -/
def isMatch (p : Pattern) (t : Text) : Bool :=
  let es := edges t
  (overlay es p).starts es.length (Search.everywhere es.length) != 0

def searchAll (p : Pattern) (t : Text) : List Match :=
  let s := Search.ofText p t
  s.allFrom s.count 0

namespace Match

def extent (m : Match) : Extent := ⟨m.start, m.stop⟩

/-- Where a group matched, if it did. -/
def group? (m : Match) (i : Nat) : Option Extent :=
  (m.groups.find? fun g => g.1 == i).map (·.2)

end Match

/-- The stretch of a text. -/
def Extent.of (e : Extent) (t : Text) : Text := (t.drop e.start).take (e.stop - e.start)

/-- The text that a group matched; empty if it did not take part. -/
def Match.textOf (m : Match) (t : Text) (i : Nat) : Text :=
  match m.group? i with
  | some e => e.of t
  | none => []

/-- The text behind a match. -/
def Match.rest (m : Match) (t : Text) : Text := t.drop m.stop

/-- Puts `f m` in place of each match `m`; `index` is where the text that is left begins. -/
def replaceMatches (f : Match → Text) : (index : Nat) → (left : Text) → List Match → Text
  | _, left, [] => left
  | index, left, m :: ms =>
    left.take (m.start - index) ++ f m ++ replaceMatches f m.stop (left.drop (m.stop - index)) ms

/-- Puts `f m` in place of every match `m` of the pattern. -/
def replaceAll (p : Pattern) (f : Match → Text) (t : Text) : Text :=
  replaceMatches f 0 t (searchAll p t)

end Pattern
end TestTransform

/-
Which files are tests.

The globs and patterns of a host see the text of a path as it is written.  Answers are
remembered under the path, and two spellings of one path share an answer: that of the
spelling asked first.
-/
import TestTransform.Host.Config
import TestTransform.Config.Globs
import TestTransform.Order.Memo

namespace TestTransform

structure TestMatcher where
  globs : List Glob
  /-- The texts of the globs in effect, with the root directory filled in. -/
  patterns : List Text
  regexes : List SourcePattern
  deriving DecidableEq, Repr, Inhabited

namespace TestMatcher

/-- The globs used when a host names neither globs nor patterns. -/
def defaultPatterns : List Text :=
  ["**/__tests__/**/*.\x7bjs,jsx,ts,tsx\x7d", "**/*.\x7bspec,test\x7d.\x7bjs,jsx,ts,tsx\x7d"]

/-- The texts of the globs in effect for a host. -/
def patternsOf (h : HostConfig) : List Text :=
  if h.testMatch.isEmpty && h.testRegexes.isEmpty then defaultPatterns
  else h.testMatch.map h.expandRoot

def ofHost (h : HostConfig) : Except ConfigError TestMatcher := do
  let patterns := patternsOf h
  let globs ← Glob.readAll true patterns
  let regexes ← h.testRegexes.mapM (SourcePattern.read .testRegex)
  .ok { globs, patterns, regexes }

/-- Whether a glob matches the path or a pattern occurs in it. -/
def isMatch (m : TestMatcher) (p : Path) : Bool :=
  Glob.anyMatch m.globs p || m.regexes.any fun r => r.occursIn p

end TestMatcher

/-! ## Remembered answers -/

/-- The answers remembered for paths. -/
abbrev TestMemo := Memo Path Bool

namespace TestMatcher

/-- Whether a path is a test, by memory or by matching. -/
def isTest (m : TestMatcher) (memo : TestMemo) (p : Path) : Bool × TestMemo :=
  memo.ask Path.cmp m.isMatch p

/-- The paths that are no tests, asked in order. -/
def filterOut (m : TestMatcher) (memo : TestMemo) : List Path → List Path × TestMemo
  | [] => ([], memo)
  | p :: ps =>
    let (test, memo) := m.isTest memo p
    let (rest, memo) := filterOut m memo ps
    (if test then rest else p :: rest, memo)

end TestMatcher
end TestTransform

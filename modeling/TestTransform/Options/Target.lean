/-
Language levels of the emitted JavaScript.
-/
import TestTransform.Text.Basic

namespace TestTransform

/-- The spelling under which an option value is looked up: lower case, without dashes,
underscores and white space. -/
def normalSpelling (t : Text) : Text :=
  (t.filter fun c => c != '-' && c != '_' && !Text.isBlank c).map Text.lowerAscii

inductive ScriptTarget where
  | es3
  | es5
  | es2015
  | es2016
  | es2017
  | es2018
  | es2019
  | es2020
  | es2021
  | es2022
  | esNext
  deriving DecidableEq, Repr, Inhabited

namespace ScriptTarget

/-- The level used when none is configured. -/
def default : ScriptTarget := es2015

def text : ScriptTarget → Text
  | es3 => "es3"
  | es5 => "es5"
  | es2015 => "es2015"
  | es2016 => "es2016"
  | es2017 => "es2017"
  | es2018 => "es2018"
  | es2019 => "es2019"
  | es2020 => "es2020"
  | es2021 => "es2021"
  | es2022 => "es2022"
  | esNext => "esnext"

/-- The levels in rising order. -/
def all : List ScriptTarget :=
  [es3, es5, es2015, es2016, es2017, es2018, es2019, es2020, es2021, es2022, esNext]

/-- The place of a level in the rising order. -/
def rank (t : ScriptTarget) : Nat := all.idxOf t

/-- Levels are found by their normal spelling; `es6` is another name of `es2015`. -/
def ofText? (t : Text) : Option ScriptTarget :=
  let name := normalSpelling t
  if name == "es6" then some es2015 else all.find? fun target => target.text == name

end ScriptTarget
end TestTransform

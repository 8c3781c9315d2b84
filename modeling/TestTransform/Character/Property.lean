/-
Properties of characters by their names.

Names are compared loosely: case, blanks, dashes, low lines and an `is` in front do not
matter, and neither does what is not ASCII.  A name alone means a property that holds or
does not, a general category or a script; a name with a value means one value of a
property that has several.
-/
import TestTransform.Character.Age
import TestTransform.Character.Derived

namespace TestTransform
namespace Character

/-! ## Names -/

/-- The letters that count in a name. -/
def essential (t : Text) : Text :=
  (t.filter fun c => c.toNat < 128 && c != ' ' && c != '_' && c != '-').map Text.lowerAscii

/-- A name as names are compared.  `isc` keeps its beginning, so it is not mistaken for the
category `c`. -/
def loose (name : Text) : Text :=
  match name with
  | a :: b :: rest =>
    if Text.lowerAscii a == 'i' && Text.lowerAscii b == 's' then
      let name := essential rest
      if name == ['c'] then "isc".toList else name
    else essential name
  | name => essential name

/-- Whether a loose name is one of the given ones. -/
def isNamed (name : Text) (names : List Text) : Bool := names.any fun n => loose n == name

/-- The entry of a table with a loose name. -/
def inTable? {α : Type} (name : Text) (table : List (String × α)) : Option α :=
  (table.find? fun e => isNamed name (words e.1)).map (·.2)

/-! ## Values of properties -/

/-- Groups of code points that are named like categories. -/
def groups : List (String × Ranges) :=
  [("Any", Ranges.all), ("ASCII", [(0, 127)]), ("Assigned", Ranges.compl (inCategories "Cn"))]

def category? (name : Text) : Option Ranges :=
  match inTable? name groups with
  | some s => some s
  | none => (inTable? name categoryNames).map inCategories

/-- The code of a script. -/
def scriptCode? (name : Text) : Option Text :=
  (scriptNames.find? fun names => isNamed name (words names)).map fun names => names.toList.take 4

def age? (name : Text) : Option Ranges :=
  let version := versions.find? fun v =>
    isNamed name [v.1.toList, 'v' :: v.1.toList.filter fun c => c != '.']
  version.map fun v => ofAge v.1.toList

/-- The properties that have several values, each with the sets of its values. -/
def valued : List (String × (Text → Option Ranges)) :=
  [ ("General_Category gc", category?),
    ("Script sc", fun value => (scriptCode? value).map ofScript),
    ("Script_Extensions scx", fun value => (scriptCode? value).map usedInScript),
    ("Age", age?),
    ("Grapheme_Cluster_Break GCB", fun value => inTable? value graphemeClasses),
    ("Word_Break WB", fun value => inTable? value wordClasses),
    ("Sentence_Break SB", fun value => inTable? value sentenceClasses) ]

/-! ## Properties that hold or do not -/

/-- The properties that follow from others. -/
def derived : List (String × (Unit → Ranges)) :=
  [ ("Alphabetic Alpha", fun _ => alphabetic),
    ("Case_Ignorable CI", fun _ => caseIgnorable),
    ("Cased", fun _ => cased),
    ("Changes_When_Casefolded CWCF", fun _ => changesWhenCasefolded),
    ("Changes_When_Casemapped CWCM", fun _ => changesWhenCasemapped),
    ("Changes_When_Lowercased CWL", fun _ => changesWhenLowercased),
    ("Changes_When_Titlecased CWT", fun _ => changesWhenTitlecased),
    ("Changes_When_Uppercased CWU", fun _ => changesWhenUppercased),
    ("Default_Ignorable_Code_Point DI", fun _ => defaultIgnorable),
    ("Grapheme_Base Gr_Base", fun _ => graphemeBase),
    ("Grapheme_Extend Gr_Ext", fun _ => graphemeExtend),
    ("ID_Continue IDC", fun _ => idContinue),
    ("ID_Start IDS", fun _ => idStart),
    ("Lowercase Lower", fun _ => lowercase),
    ("Math", fun _ => math),
    ("Uppercase Upper", fun _ => uppercase),
    ("XID_Continue XIDC", fun _ => xidContinue),
    ("XID_Start XIDS", fun _ => xidStart) ]

def binary? (name : Text) : Option Ranges :=
  match inTable? name derived with
  | some set => some (set ())
  | none => (inTable? name listedTable).map ofSwitches

/-! ## All properties -/

/-- The code points that a name alone stands for. -/
def property? (name : Text) : Option Ranges :=
  let name := loose name
  match binary? name with
  | some s => some s
  | none =>
    match category? name with
    | some s => some s
    | none => (scriptCode? name).map ofScript

/-- The code points for which a property has a value. -/
def propertyValue? (name value : Text) : Option Ranges :=
  (inTable? (loose name) valued).bind fun sets => sets (loose value)

end Character
end TestTransform

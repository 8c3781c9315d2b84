/-
The lines that the miniature compiler knows: the patterns of declarations, annotations,
imports and exports.
-/
import TestTransform.Pattern.Match

namespace TestTransform
namespace Miniature

open Pattern

/-! ## Parts -/

def identStart : CharSet :=
  .union (.union (.between 'A' 'Z') (.between 'a' 'z')) (.ofText "_$")

def identPart : CharSet := .union (.word false) (.single '$')

def ident : Pattern := seq (one identStart) (star (one identPart))

/-- A simple type: a dotted name, type arguments, array brackets. -/
def type : Pattern :=
  all [one identStart, star (one (.union identPart (.single '.'))),
    optional (all [char '<', star (one (.compl (.single '>'))), char '>']),
    star (literal "[]")]

def quote : CharSet := .ofText "'\""

/-- A quoted text, which becomes the group `n`. -/
def quotedGroup (n : Nat) : Pattern :=
  all [one quote, group n (plus (one (.compl quote))), one quote]

/-- The end of a statement that fills its line. -/
def lineEnd : Pattern := all [blanks, optional (char ';'), blanks, stop]

def variableWord : Pattern := any [literal "const", literal "let", literal "var"]

def exportWord : Pattern := optional (seq (literal "export") someBlanks)

/-- Names in braces, which become the group `n`. -/
def bracedGroup (n : Nat) : Pattern :=
  all [char '{', group n (star (one (.compl (.single '}')))), char '}']

/-! ## Types -/

/-- A line that begins a declaration of types only. -/
def typeDeclaration : Pattern :=
  all [start, blanks, exportWord, any [literal "interface", literal "type", literal "declare"],
    one (.blank false)]

/-- A line that imports or exports types only. -/
def typeOnlyImport : Pattern :=
  all [start, blanks, any [literal "import", literal "export"], someBlanks, literal "type",
    one (.blank false)]

/-- The annotation of a variable: the word, the name, and what follows the type. -/
def variableAnnotation : Pattern :=
  all [wordEdge, group 1 variableWord, someBlanks, group 2 ident, blanks, char ':', blanks,
    plusLazy (one (.compl (.ofText "=;"))), group 3 (seq blanks (one (.ofText "=;")))]

/-- The annotation of a result, up to the body. -/
def resultAnnotation : Pattern :=
  all [char ')', blanks, char ':', blanks, type, blanks, group 1 (any [char '{', literal "=>"])]

/-- The annotation of a parameter: the name, and what follows the type. -/
def parameterAnnotation : Pattern :=
  all [group 1 ident, optional (char '?'), blanks, char ':', blanks, type,
    group 2 (seq blanks (one (.ofText ",)=")))]

/-! ## Imports and exports -/

def importNamed : Pattern :=
  all [start, blanks, literal "import", blanks, bracedGroup 1, blanks, literal "from", blanks,
    quotedGroup 2, lineEnd]

def importDefault : Pattern :=
  all [start, blanks, literal "import", someBlanks, group 1 ident, someBlanks, literal "from",
    blanks, quotedGroup 2, lineEnd]

def importNamespace : Pattern :=
  all [start, blanks, literal "import", blanks, char '*', blanks, literal "as", someBlanks,
    group 1 ident, someBlanks, literal "from", blanks, quotedGroup 2, lineEnd]

def importBare : Pattern :=
  all [start, blanks, literal "import", blanks, quotedGroup 1, lineEnd]

/-- A declaration that is exported: the indentation, the declaration, the name in it. -/
def exportDeclaration : Pattern :=
  all [start, group 1 blanks, literal "export", someBlanks,
    group 2 (all [optional (seq (literal "async") someBlanks),
      any [literal "const", literal "let", literal "var", literal "function", literal "class"],
      someBlanks, group 3 ident])]

def exportDefault : Pattern :=
  all [start, group 1 blanks, literal "export", someBlanks, literal "default", someBlanks]

def exportList : Pattern :=
  all [start, blanks, literal "export", blanks, bracedGroup 1, lineEnd]

/-- A place where a module is named, whose name becomes the group 1. -/
def moduleSpecifier : Pattern :=
  all [any [seq wordEdge (literal "from"), all [start, blanks, literal "import"],
      seq wordEdge (literal "require(")],
    blanks, quotedGroup 1]

/-! ## Values -/

/-- A declaration with a value: the name, the type if it is annotated, the value. -/
def valueDeclaration : Pattern :=
  all [start, blanks, exportWord, variableWord, someBlanks, group 1 ident, blanks,
    optional (all [char ':', blanks, group 2 type, blanks]), char '=', blanks,
    group 3 (plusLazy dot), lineEnd]

/-- A name between double underscores in capitals. -/
def globalName : Pattern :=
  all [literal "__", one (.between 'A' 'Z'),
    star (one (.union (.union (.between 'A' 'Z') (.between '0' '9')) (.single '_'))),
    literal "__"]

/-- A use of such a name. -/
def ambientGlobal : Pattern := all [wordEdge, globalName, wordEdge]

/-- A declaration of such a name, which becomes the group 1. -/
def ambientDeclaration : Pattern :=
  all [start, blanks, literal "declare", someBlanks, variableWord, someBlanks,
    group 1 globalName, wordEdge]

def identifier : Pattern := all [start, ident, stop]

end Miniature
end TestTransform

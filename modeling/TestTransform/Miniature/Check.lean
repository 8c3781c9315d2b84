/-
What the miniature compiler finds in a program: modules, and three kinds of mistakes.

It reports unbalanced braces, values whose literal type is not the annotated one (also
values imported from other files), and names between double underscores that no
declaration file of the program declares.
-/
import TestTransform.Miniature.Lines
import TestTransform.Compiler.ServiceHost
import TestTransform.Diagnostic.Basic
import TestTransform.Files.Kind
import TestTransform.Text.Utf8

namespace TestTransform
namespace Miniature

def missingToken : Nat := 1005
def typeNotAssignable : Nat := 2322
def cannotFindName : Nat := 2304

/-! ## Braces -/

/-- One diagnostic at the last line if braces do not balance. -/
def syntacticDiagnostics (text : Text) (file : Path) : List Diagnostic :=
  if Text.countOf '{' text == Text.countOf '}' text then []
  else
    let lastLine := (Text.lines text).length - 1
    [((Diagnostic.error missingToken "'\x7d' expected.").withFile file).withSpan
      ⟨Diagnostic.narrow lastLine, 0⟩ 1]

/-! ## Modules -/

/-- What may be put behind a module's name to find its file. -/
def suffixes : List Text :=
  [".ts", ".tsx", ".d.ts", ".js", "/index.ts", "/index.d.ts", "/index.js"]

/-- The files a base may stand for. -/
def candidates (base : Path) : List Path :=
  (if base.extension?.isSome then [base] else []) ++ suffixes.map base.append

/-- The file that a specifier stands for as seen from a file, among those that exist. -/
def resolveModule (hasFile : Path → Bool) (file : Path) (specifier : Text) : Option Path :=
  let dir := file.parent?.getD (Path.ofString "/")
  let relative := specifier.head? == some '.' || specifier.head? == some '/'
  let bases : List Path :=
    if relative then [(dir.join ⟨specifier⟩).normalize]
    else dir.ancestors.map fun d => (d.join ⟨"node_modules"⟩).join ⟨specifier⟩
  (bases.flatMap candidates).find? hasFile

/-- The modules named in a line. -/
def specifiers (line : Text) : List Text :=
  (Pattern.searchAll moduleSpecifier line).map fun m => m.textOf line 1

/-- The modules that a file imports, each once, in the order in which they are named. -/
def resolvedModules (view : FileView) (h : ServiceHost) (file : Path) : List Path × ServiceHost :=
  let (text, h) := h.snapshot view file
  match text with
  | none => ([], h)
  | some text =>
    let found := ((Text.lines text).flatMap specifiers).filterMap
      (resolveModule (h.hasFile view) file)
    (found.foldl (fun seen p => if seen.any p.same then seen else seen ++ [p]) [], h)

/-! ## Types of values -/

/-- Digits, at least one of them, and what follows them. -/
def digitRun (t : Text) : Text × Text := (t.takeWhile Text.isDigit, t.dropWhile Text.isDigit)

/-- Whether a text is an exponent, or empty. -/
def isExponent : Text → Bool
  | [] => true
  | c :: rest =>
    (c == 'e' || c == 'E') &&
      (let digits := match rest with
        | '+' :: rest => rest
        | '-' :: rest => rest
        | rest => rest
       digits ≠ [] && digits.all Text.isDigit)

/-- Whether a text is a number: digits with a point before, between or behind them and an
exponent, or a name of infinity or of no number. -/
def isNumber (t : Text) : Bool :=
  let t := match t with
    | '+' :: rest => rest
    | '-' :: rest => rest
    | t => t
  let name := t.map Text.lowerAscii
  if name == "inf".toList || name == "infinity".toList || name == "nan".toList then true
  else
    let (whole, rest) := digitRun t
    match rest with
    | '.' :: rest =>
      let (fraction, rest) := digitRun rest
      (whole ≠ [] || fraction ≠ []) && isExponent rest
    | rest => whole ≠ [] && isExponent rest

/-- The type of a literal. -/
def literalType? (expression : Text) : Option Text :=
  let e := Text.trim expression
  if isNumber e then some "number"
  else if e.head? == some '"' || e.head? == some '\'' || e.head? == some '`' then some "string"
  else if e == "true".toList || e == "false".toList then some "boolean"
  else none

/-- A value declaration: name, annotated type and value. -/
structure ValueLine where
  name : Text
  nameAt : Pattern.Extent
  declared : Option Text
  value : Text

def valueLine? (line : Text) : Option ValueLine :=
  (Pattern.search valueDeclaration line).map fun m =>
    { name := m.textOf line 1
      nameAt := (m.group? 1).getD ⟨0, 0⟩
      declared := (m.group? 2).map fun e => e.of line
      value := m.textOf line 3 }

/-- The name under which a module exports what a binding makes known as `name`. -/
def exportedName? (name binding : Text) : Option Text :=
  match (Text.splitOnText " as " binding).map Text.trim with
  | [] => none
  | exported :: rest => if rest.headD exported == name then some exported else none

/-- The import of a name: the name it is exported under, and the module. -/
def importOf? (text name : Text) : Option (Text × Text) :=
  (Text.lines text).findSome? fun line =>
    (Pattern.search importNamed line).bind fun m =>
      ((Text.splitOn ',' (m.textOf line 1)).findSome? (exportedName? name)).map fun exported =>
        (exported, m.textOf line 2)

/-- The outcome of following a value to its type. -/
inductive TypeSearch where
  | found (type : Text)
  | unknown
  /-- The search was still going on when its fuel was used up. -/
  | unfinished
  deriving DecidableEq, Repr, Inhabited

/-- Follows a name to the type of its value: through a declaration in the file to what it
is declared as or to another name, or through an import to another file.  All steps are counted
in `depth`, but only those from name to name within a file look at it, and they end at nine;
what bounds the steps through imports is the fuel. -/
def identifierType (view : FileView) : (fuel : Nat) → ServiceHost → (file : Path) → (text : Text) →
    (name : Text) → (depth : Nat) → TypeSearch × ServiceHost
  | 0, h, _, _, _, _ => (.unfinished, h)
  | fuel + 1, h, file, text, name, depth =>
    match ((Text.lines text).filterMap valueLine?).find? fun v => v.name == name with
    | some v =>
      match v.declared with
      | some type => (.found type, h)
      | none =>
        match literalType? v.value with
        | some type => (.found type, h)
        | none =>
          if depth > 8 || !Pattern.isMatch identifier v.value then (.unknown, h)
          else identifierType view fuel h file text v.value (depth + 1)
    | none =>
      match importOf? text name with
      | none => (.unknown, h)
      | some (exported, specifier) =>
        match resolveModule (h.hasFile view) file specifier with
        | none => (.unknown, h)
        | some module =>
          match h.snapshot view module with
          | (none, h) => (.unknown, h)
          | (some moduleText, h) =>
            identifierType view fuel h module moduleText exported (depth + 1)

/-- The type of a value: that of a literal, or of what a name stands for. -/
def expressionType (view : FileView) (fuel : Nat) (h : ServiceHost) (file : Path)
    (text expression : Text) : TypeSearch × ServiceHost :=
  match literalType? expression with
  | some type => (.found type, h)
  | none =>
    if Pattern.isMatch identifier expression then
      identifierType view fuel h file text expression 1
    else (.unknown, h)

/-- The types that a value's annotation is checked for. -/
def primitives : List Text := ["string", "number", "boolean"]

/-! ## Mistakes in a file -/

/-- A diagnostic about a name in a line.  Where the name begins and how long it is are counted in
bytes. -/
def spanned (d : Diagnostic) (line : Text) (number index : Nat) (name : Text) : Diagnostic :=
  d.withSpan ⟨Diagnostic.narrow number, Diagnostic.narrow (Text.byteLength (line.take index))⟩
    (Diagnostic.narrow name.byteLength)

/-- The message about a name that is not declared. -/
def missingMessage (name : Text) : Text := "Cannot find name '" ++ name ++ "'."

/-- The diagnostic of a use of a name that is not declared. -/
def missing (file : Path) (number : Nat) (line : Text) (use : Pattern.Match) : Diagnostic :=
  let name := use.extent.of line
  spanned ((Diagnostic.error cannotFindName (missingMessage name)).withFile file) line number
    use.start name

/-- The diagnostic of a value that is of another type than it is declared to be. -/
def mismatch (file : Path) (number : Nat) (line : Text) (v : ValueLine) (declared actual : Text) :
    Diagnostic :=
  let message := "Type '" ++ actual ++ "' is not assignable to type '" ++ declared ++ "'."
  spanned ((Diagnostic.error typeNotAssignable message).withFile file) line number v.nameAt.start
    v.name

/-- The names that the lines of a text declare. -/
def declaredGlobals (text : Text) : List Text :=
  (Text.lines text).filterMap fun line =>
    (Pattern.search ambientDeclaration line).map fun m => m.textOf line 1

/-- The names declared by the declaration files among the scripts, read in order. -/
def globalsOfScripts (view : FileView) (file : Path) :
    List Path → ServiceHost → List Text × ServiceHost
  | [], h => ([], h)
  | script :: scripts, h =>
    if !script.same file && script.isDeclaration then
      let (text, h) := h.snapshot view script
      let (names, h) := globalsOfScripts view file scripts h
      (declaredGlobals (text.getD []) ++ names, h)
    else globalsOfScripts view file scripts h

/-- The uses in a line of names that are not declared. -/
def undeclaredInLine (file : Path) (declared : List Text) (number : Nat) (line : Text) :
    List Diagnostic :=
  if Pattern.isMatch ambientDeclaration line then []
  else
    (Pattern.searchAll ambientGlobal line).filterMap fun m =>
      if declared.contains (m.extent.of line) then none else some (missing file number line m)

/-- What a check of types finds, and whether it comes to an end. -/
structure Findings where
  diagnostics : List Diagnostic := []
  /-- Whether every search for a type has ended. -/
  ended : Bool := true
  deriving DecidableEq, Repr, Inhabited

def Findings.append (a b : Findings) : Findings :=
  { diagnostics := a.diagnostics ++ b.diagnostics, ended := a.ended && b.ended }

/-- The mismatch between the annotated type of a value and its own, if there is one. -/
def mismatchInLine (view : FileView) (fuel : Nat) (h : ServiceHost) (file : Path) (text : Text)
    (number : Nat) (line : Text) : Findings × ServiceHost :=
  match valueLine? line with
  | none => ({}, h)
  | some v =>
    match v.declared.filter primitives.contains with
    | none => ({}, h)
    | some declared =>
      match expressionType view fuel h file text v.value with
      | (.found actual, h) =>
        if actual == declared then ({}, h)
        else ({ diagnostics := [mismatch file number line v declared actual] }, h)
      | (.unknown, h) => ({}, h)
      | (.unfinished, h) => ({ ended := false }, h)

/-- The mismatches in the lines of a text, numbered from `number` on. -/
def mismatches (view : FileView) (fuel : Nat) (file : Path) (text : Text) :
    (number : Nat) → List Text → ServiceHost → Findings × ServiceHost
  | _, [], h => ({}, h)
  | number, line :: lines, h =>
    let (found, h) := mismatchInLine view fuel h file text number line
    let (rest, h) := mismatches view fuel file text (number + 1) lines h
    (found.append rest, h)

/-- The undeclared names and the mismatches of a file. -/
def semanticDiagnostics (view : FileView) (fuel : Nat) (h : ServiceHost) (file : Path) :
    Findings × ServiceHost :=
  match h.snapshot view file with
  | (none, h) => ({}, h)
  | (some text, h) =>
    let (others, h) := globalsOfScripts view file h.scriptNames h
    let declared := declaredGlobals text ++ others
    let lines := Text.lines text
    let undeclared := (lines.zipIdx).flatMap fun (line, number) =>
      undeclaredInLine file declared number line
    let (wrong, h) := mismatches view fuel file text 0 lines h
    ({ wrong with diagnostics := undeclared ++ wrong.diagnostics }, h)

end Miniature
end TestTransform

/-
The commands and how they are spelled.

Options are read from left to right and given once each.  A value is the next argument or
what follows an equals sign; it is never empty, and as an argument of its own it does not
look like an option.  Behind `--` there are no options.
-/
import TestTransform.Path.Basic

namespace TestTransform
namespace CommandLine

inductive Command where
  /-- Shows the configuration that a directory resolves to. -/
  | tsconfig (rootDir : Path) (project : Option Path)
  /-- Shows the recorded tests and their modules. -/
  | showGraph (cacheDir : Path) (json : Bool)
  /-- Shows the recorded tests that import a file. -/
  | dependents (cacheDir file : Path)
  /-- Deletes the graph. -/
  | clear (cacheDir : Path)
  deriving DecidableEq, Repr, Inhabited

inductive Invocation where
  | command (command : Command)
  | version
  | help
  deriving DecidableEq, Repr, Inhabited

/-- Why arguments are not carried out as a command. -/
inductive Refusal where
  /-- They ask for help. -/
  | help
  /-- They are misspelled. -/
  | usage
  deriving DecidableEq, Repr, Inhabited

/-! ## Options -/

structure OptionSpec where
  name : Text
  letter : Option Char := none
  takesValue : Bool := true
  deriving DecidableEq, Repr, Inhabited

inductive Token where
  | option (name value : Text)
  | flag (name : Text)
  | operand (text : Text)
  deriving DecidableEq, Repr, Inhabited

/-- Whether an argument cannot be the value of an option in front of it. -/
def looksLikeOption : Text → Bool
  | '-' :: _ :: _ => true
  | _ => false

/-- The name of a long option and what follows its equals sign. -/
def splitLong (t : Text) : Text × Option Text :=
  match t.dropWhile fun c => c != '=' with
  | _ :: value => (t.takeWhile fun c => c != '=', some value)
  | [] => (t, none)

/-- The value attached to a letter, with or without an equals sign. -/
def attached : Text → Option Text
  | [] => none
  | '=' :: value => some value
  | value => some value

/-- An option together with the value attached to it, or the options are refused. -/
def readOption (specs : List OptionSpec) : Text → Except Refusal (OptionSpec × Option Text)
  | '-' :: '-' :: long =>
    let (name, value) := splitLong long
    match specs.find? fun s => s.name == name with
    | some s => .ok (s, value)
    | none => .error (if name == "help".toList && value.isNone then .help else .usage)
  | '-' :: letter :: rest =>
    match specs.find? fun s => s.letter == some letter with
    | some s => .ok (s, attached rest)
    | none => .error (if letter == 'h' then .help else .usage)
  | _ => .error .usage

/-- The tokens of a list of arguments, of which `room` may still be operands.  `given` are
the options read so far, none of which may come again, and `waiting` is the one whose value
comes next.  The first argument that does not fit decides, so a call for help counts only
if everything in front of it is well spelled. -/
def tokens (specs : List OptionSpec) : (room : Nat) → (given : List Text) →
    (waiting : Option Text) → List Text → Except Refusal (List Token)
  | _, _, none, [] => .ok []
  | _, _, some _, [] => .error .usage
  | room, given, some name, arg :: args =>
    if arg.isEmpty || looksLikeOption arg then .error .usage
    else do .ok (.option name arg :: (← tokens specs room given none args))
  | room, given, none, arg :: args =>
    if arg == "--".toList then
      if args.length ≤ room && !args.contains [] then .ok (args.map Token.operand)
      else .error .usage
    else if looksLikeOption arg then
      match readOption specs arg with
      | .error e => .error e
      | .ok (s, value) =>
        if given.contains s.name then .error .usage
        else
          match value with
          | none =>
            if s.takesValue then tokens specs room (s.name :: given) (some s.name) args
            else do .ok (.flag s.name :: (← tokens specs room (s.name :: given) none args))
          | some value =>
            if s.takesValue && !value.isEmpty then
              do .ok (.option s.name value :: (← tokens specs room (s.name :: given) none args))
            else .error .usage
    else
      match room with
      | 0 => .error .usage
      | room + 1 =>
        if arg.isEmpty then .error .usage
        else do .ok (.operand arg :: (← tokens specs room given none args))

/-! ## What the tokens say -/

/-- The value of an option, if it is given. -/
def valueOf? (name : Text) (ts : List Token) : Option Path :=
  ts.findSome? fun t =>
    match t with
    | .option n value => if n == name then some ⟨value⟩ else none
    | _ => none

/-- The value of an option that must be given. -/
def required (name : Text) (ts : List Token) : Except Refusal Path :=
  match valueOf? name ts with
  | some value => .ok value
  | none => .error .usage

/-- Whether a flag is given. -/
def flagged (name : Text) (ts : List Token) : Bool := ts.contains (.flag name)

/-- The operand, which must be given. -/
def operand (ts : List Token) : Except Refusal Path :=
  match ts.findSome? fun t => (match t with | .operand text => some text | _ => none) with
  | some text => .ok ⟨text⟩
  | none => .error .usage

/-! ## Commands -/

def rootDirOption : OptionSpec := { name := "root-dir" }

def projectOption : OptionSpec := { name := "project", letter := some 'p' }

def cacheDirOption : OptionSpec := { name := "cache-dir" }

def jsonFlag : OptionSpec := { name := "json", takesValue := false }

def readTsconfig (args : List Text) : Except Refusal Command := do
  let ts ← tokens [rootDirOption, projectOption] 0 [] none args
  let rootDir := (valueOf? rootDirOption.name ts).getD (Path.ofString ".")
  .ok (.tsconfig rootDir (valueOf? projectOption.name ts))

def readShow (args : List Text) : Except Refusal Command := do
  let ts ← tokens [cacheDirOption, jsonFlag] 0 [] none args
  .ok (.showGraph (← required cacheDirOption.name ts) (flagged jsonFlag.name ts))

def readDependents (args : List Text) : Except Refusal Command := do
  let ts ← tokens [cacheDirOption] 1 [] none args
  .ok (.dependents (← required cacheDirOption.name ts) (← operand ts))

def readClear (args : List Text) : Except Refusal Command := do
  let ts ← tokens [cacheDirOption] 0 [] none args
  .ok (.clear (← required cacheDirOption.name ts))

/-- The commands by the words that name them. -/
def commands : List (List Text × (List Text → Except Refusal Command)) :=
  [ (["tsconfig"], readTsconfig),
    (["deps", "show"], readShow),
    (["deps", "dependents"], readDependents),
    (["deps", "clear"], readClear) ]

/-- The words that can follow some words. -/
def isTopic (words : List Text) : Bool :=
  commands.any fun c => words.isPrefixOf c.1

def commandAt (words : List Text) : Option (List Text → Except Refusal Command) :=
  (commands.find? fun c => c.1 == words).map (·.2)

/-- Reads what follows some words: the arguments of the command they name, or its next
word. -/
def readFrom : (words : List Text) → List Text → Except Refusal Command
  | words, [] =>
    match commandAt words with
    | some read => read []
    | none => .error .usage
  | words, arg :: args =>
    match commandAt words with
    | some read => read (arg :: args)
    | none =>
      if looksLikeOption arg then
        match readOption [] arg with
        | .error e => .error e
        | .ok _ => .error .usage
      else if arg == "help".toList then
        .error (if isTopic (words ++ args) then .help else .usage)
      else if isTopic (words ++ [arg]) then readFrom (words ++ [arg]) args
      else .error .usage

/-- Whether the arguments ask for the version. -/
def asksVersion : List Text → Bool
  | arg :: _ => arg == "--version".toList || startsWithLetter arg
  | [] => false
where
  startsWithLetter : Text → Bool
    | '-' :: 'V' :: _ => true
    | _ => false

/-- Reads the arguments of a call. -/
def read (args : List Text) : Except Refusal Invocation :=
  if asksVersion args then .ok .version
  else
    match readFrom [] args with
    | .ok c => .ok (.command c)
    | .error .help => .ok .help
    | .error e => .error e

end CommandLine
end TestTransform

/-
Carrying out commands.

What a command shows is worked out from a view of the files; the one change that a
command can ask for, deleting a file, is left to the caller.
-/
import TestTransform.CommandLine.Arguments
import TestTransform.Config.Reference
import TestTransform.Graph.Cache

namespace TestTransform
namespace CommandLine

def version : Text := "tsjest 0.1.0\n"

def help : Text :=
  "Usage: tsjest <COMMAND>\n\nCommands:\n" ++
  ("  tsconfig [--root-dir <DIR>] [--project <FILE>]\n" : Text) ++
  ("  deps show --cache-dir <DIR> [--json]\n" : Text) ++
  ("  deps dependents --cache-dir <DIR> <FILE>\n" : Text) ++
  ("  deps clear --cache-dir <DIR>\n" : Text)

/-- Why a command fails. -/
inductive Failure where
  | noConfigFile (rootDir : Path)
  | config (error : ConfigError)
  | invalidOptions (path : Path)
  | clear (cacheDir : Path)
  deriving DecidableEq, Repr

def Failure.message : Failure → Text
  | noConfigFile dir => "No tsconfig.json found from " ++ dir.text
  | config e => e.message
  | invalidOptions path => "Invalid compilerOptions in " ++ path.text
  | clear dir => "Failed to clear the dependency graph in " ++ dir.text

/-- What a command comes to: a text to print, or a file to delete first, with what to say
if that fails. -/
inductive Outcome where
  | print (text : Text)
  | deleteThenPrint (file : Path) (text : Text) (failure : Failure)
  deriving DecidableEq, Repr

/-! ## Configuration -/

/-- The configuration file that a project's directory resolves to. -/
def configPath (view : FileView) (rootDir : Path) : Option Path → Except Failure Path
  | some project => .ok (rootDir.resolve project)
  | none =>
    match TsConfig.find? view rootDir with
    | some path => .ok path
    | none => .error (.noConfigFile rootDir)

def referenceJson (r : ProjectReference) : Json :=
  .obj [("path", .str r.configPath.text), ("rootDir", .str r.rootDir.text),
    ("outDir", Json.ofOption (fun p => .str p.text) r.outDir)]

/-- A configuration as it is shown.  Globs to exclude are not part of it. -/
def configJson (c : TsConfig) (references : List ProjectReference) : Json :=
  Json.canon <| .obj
    [ ("path", .str c.path.text),
      ("compilerOptions", .obj c.compilerOptions),
      ("include", Json.ofOption Json.ofTexts c.includes),
      ("files", Json.ofOption (fun ps => Json.ofTexts (ps.map (·.text))) c.files),
      ("references", .arr (references.map referenceJson)) ]

/-- Shows a configuration, all of which must be valid. -/
def showConfig (view : FileView) (rootDir : Path) (project : Option Path) :
    Except Failure Text := do
  let path ← configPath view rootDir project
  let c ← (TsConfig.read view path).mapError Failure.config
  match CompilerOptions.ofFields c.compilerOptions with
  | .error _ => .error (.invalidOptions path)
  | .ok _ =>
    let references ← (c.references.mapM (ProjectReference.load view)).mapError Failure.config
    .ok ((configJson c references).indented 0 ++ ['\n'])

/-! ## Graph -/

def line (t : Text) : Text := t ++ ['\n']

/-- The graph as JSON, sorted by the texts of the paths. -/
def graphJson (g : DependencyGraph) : Text := line (g.toJson.canon.indented 0)

/-- A recorded test and its modules. -/
def entryLines (e : Path × GraphEntry) : Text :=
  line e.1.text ++ e.2.modules.flatMap fun m => line ("  -> " ++ m.text)

def graphText (g : DependencyGraph) (cacheDir : Path) : Text :=
  if g.entries.isEmpty then line ("No recorded test files in " ++ cacheDir.text)
  else g.entries.flatMap entryLines

def dependentsText (g : DependencyGraph) (file : Path) : Text :=
  match g.dependentsOf file with
  | [] => line ("No recorded test file imports " ++ file.text)
  | tests => tests.flatMap fun p => line p.text

/-- Deletes the graph's file if there is one, whatever is in it. -/
def clearGraph (view : FileView) (cacheDir : Path) : Outcome :=
  let c := GraphCache.openAt view (some cacheDir)
  let text : Text :=
    line ("Cleared " ++ Text.ofNat c.graph.entries.length ++ " recorded test file(s)")
  match c.file.filter view.hasFile with
  | some file => .deleteThenPrint file text (.clear cacheDir)
  | none => .print text

/-! ## Commands -/

/-- Carries out a command in a working directory. -/
def run (view : FileView) (cwd : Path) : Command → Except Failure Outcome
  | .tsconfig rootDir project => (showConfig view (cwd.resolve rootDir) project).map .print
  | .showGraph dir json =>
    let dir := cwd.resolve dir
    let g := (GraphCache.openAt view (some dir)).graph
    .ok (.print (if json then graphJson g else graphText g dir))
  | .dependents dir file =>
    let g := (GraphCache.openAt view (some (cwd.resolve dir))).graph
    .ok (.print (dependentsText g (cwd.resolve file)))
  | .clear dir => .ok (clearGraph view (cwd.resolve dir))

/-! ## What a command looks at -/

/-- The files that a command looks at first.  Those that their texts mention come after. -/
def wanted (cwd : Path) : Command → List Path
  | .tsconfig rootDir project =>
    let rootDir := cwd.resolve rootDir
    match project with
    | some p => [rootDir.resolve p]
    | none => rootDir.ancestors.map fun dir => dir.join ⟨TsConfig.fileName⟩
  | .showGraph dir _ => graphFile dir
  | .dependents dir _ => graphFile dir
  | .clear dir => graphFile dir
where
  graphFile (dir : Path) : List Path := (GraphCache.new (some (cwd.resolve dir))).file.toList

end CommandLine
end TestTransform

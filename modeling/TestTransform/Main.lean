/-
The command line: reads the files that a command looks at, carries the command out and
prints what comes of it.
-/
import TestTransform.CommandLine.Run
import TestTransform.Files.Known

namespace TestTransform
namespace CommandLine

/-- Whether the number of an error is that for a file where a directory should be; it comes
with either sign. -/
def isNotADirectory (code : UInt32) : Bool := code == 20 || code + 20 == 0

/-- What a failed read means. -/
def fileError : IO.Error → FileError
  | .noFileOrDirectory .. => .ofKind .notFound
  | .inappropriateType _ code _ =>
    .ofKind (if isNotADirectory code then .notADirectory else .isADirectory)
  | .permissionDenied .. => .ofKind .permissionDenied
  | e => ⟨.invalidInput, (toString e).toList⟩

/-- Reads files and those that their texts mention, each once. -/
partial def load (known : KnownFiles) : List Path → IO KnownFiles
  | [] => return known
  | path :: paths => do
    if (known.find? path).isSome then load known paths
    else
      match ← (IO.FS.readFile (String.ofList path.text)).toBaseIO with
      | .ok text =>
        let text := text.toList
        load (known.add path (.ok text)) (TsConfig.mentioned path text ++ paths)
      | .error e => load (known.add path (.error (fileError e))) paths

def put (t : Text) : IO Unit := IO.print (String.ofList t)

def fail (t : Text) : IO UInt32 := do
  IO.eprintln ("Error: " ++ String.ofList t)
  return 1

def finish : Outcome → IO UInt32
  | .print text => do
    put text
    return 0
  | .deleteThenPrint file text failure => do
    match ← (IO.FS.removeFile (String.ofList file.text)).toBaseIO with
    | .ok () =>
      put text
      return 0
    | .error _ => fail failure.message

def runCommand (c : Command) : IO UInt32 := do
  let cwd : Path := ⟨(← IO.currentDir).toString.toList⟩
  let known ← load {} (wanted cwd c)
  match run known.view cwd c with
  | .ok outcome => finish outcome
  | .error failure => fail failure.message

end CommandLine
end TestTransform

open TestTransform.CommandLine in
def main (args : List String) : IO UInt32 := do
  match read (args.map String.toList) with
  | .ok .version =>
    put version
    return 0
  | .ok .help =>
    put help
    return 0
  | .ok (.command c) => runCommand c
  | .error _ =>
    IO.eprint (String.ofList help)
    return 2

/-
The command as a program.

All that a run may ask for is read beforehand: the variables, the settings file,
and the files that the command line and the settings file name.  The run itself
is a function of that.  If its file cannot be written, the run is the one in
which writing is refused.
-/
import OntologyModel.Command.Report
import OntologyModel.Log.Text

namespace OntologyModel
namespace Program

def variableNames : List String :=
  Parameter.all.filterMap Parameter.envName? ++
    ["ENVIRONMENT", "ENV", "LOG_FORMAT", "LOG_SPAN_EVENTS", "RUST_LOG"]

def readVariables : List String → IO (List (String × String))
  | [] => return []
  | name :: rest => do
    let others ← readVariables rest
    match ← IO.getEnv name with
    | some value => return (name, value) :: others
    | none => return others

def fileError : IO.Error → FileError
  | .noFileOrDirectory .. => .notFound
  | .inappropriateType _ code _ =>
    if code = 20 then .notDirectory else .isDirectory
  | e => .other (toString e)

def inspect (path : String) : IO (Except FileError Entry) := do
  try
    let resolved ← IO.FS.realPath path
    if ← resolved.isDir then return .ok .directory
    return .ok (.file (← IO.FS.readFile path))
  catch e => return .error (fileError e)

def inspectAll : List String → IO (List (String × Except FileError Entry))
  | [] => return []
  | path :: rest => do
    let entry ← inspect path
    return (path, entry) :: (← inspectAll rest)

def namedPaths (files : Files) (path : String) : List String :=
  match FileSettings.load files path with
  | .ok f => f.input.toList ++ f.context.toList
  | .error _ => []

def relevantFiles (env : String → Option String) (arguments : List String) : IO Files := do
  match CommandLine.read env arguments with
  | .error _ => return .ofList []
  | .ok c =>
    let settings ← inspectAll c.settingsFile.toList
    let named := c.settingsFile.toList.flatMap (namedPaths (.ofList settings))
    let others ← inspectAll (c.input.toList ++ c.context.toList ++ named)
    return .ofList (settings ++ others)

def write (files : Files) (run : Files → Command.Run) : IO Command.Run := do
  let r := run files
  match r.result with
  | .ok ⟨text, some path⟩ =>
    try
      IO.FS.writeFile path text
      return r
    catch e => return run { files with writing := fun _ => .error (fileError e) }
  | _ => return r

def perform (arguments : List String) : IO UInt32 := do
  let known ← readVariables variableNames
  let env := fun name => known.lookup name
  let files ← relevantFiles env arguments
  let r ← write files fun files => Command.run files env arguments
  let report := Command.report env r
  let stderr ← IO.getStderr
  for line in report.lines do
    stderr.putStrLn (line.render report.layout)
  if report.complaint != "" then stderr.putStrLn report.complaint
  IO.print report.stdout
  return report.exitCode

end Program
end OntologyModel

def main (arguments : List String) : IO UInt32 :=
  OntologyModel.Program.perform arguments

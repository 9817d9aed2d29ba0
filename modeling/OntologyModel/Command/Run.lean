/-
The command.

A run reads its arguments, its settings, a context and a graph, builds a model and
delivers its text, to a file or to the standard output.  It ends with the first
error.  Everything it learns about files comes from a view of them, so that a run
is a function.
-/
import OntologyModel.Command.Events
import OntologyModel.Rdf.Load

namespace OntologyModel
namespace Command

inductive Failure where
  | usage (cause : UsageError)
  | settings (cause : SettingsError)
  | graph (cause : GraphError)
  | model (cause : ModelError)
  | unwritten (path : String) (cause : FileError)
deriving DecidableEq, Repr

namespace Failure

/-- The messages, the outermost first. -/
def messages : Failure → List String
  | .usage _ => []
  | .settings e => e.messages
  | .graph e => [e.message]
  | .model e => [e.message]
  | .unwritten path e => ["failed to write model to " ++ Text.quoted path, e.message]

end Failure

/-- The text of a model, and the file it goes to; none is the standard output. -/
structure Delivery where
  text : String
  path : Option String
deriving DecidableEq, Repr

structure Run where
  log : List Log.Record
  result : Except Failure Delivery

namespace Run

def after (r : Log.Record) (run : Run) : Run := { run with log := r :: run.log }

end Run

def deliver (files : Files) (s : Settings) (text : String) : Run :=
  match s.output with
  | none => ⟨[], .ok ⟨text, none⟩⟩
  | some path =>
    match files.writing path with
    | .ok () => ⟨[written path], .ok ⟨text, some path⟩⟩
    | .error e => ⟨[], .error (.unwritten path e)⟩

def build (files : Files) (s : Settings) (ns : Namespaces) (d : Dataset) : Run :=
  let construction := Model.construction ns.compact (.ofNamespace s.metadataNamespace)
  let log := building (construction.findings d.source)
  match construction.run d.source with
  | .error e => ⟨log ++ [failing e], .error (.model e)⟩
  | .ok m =>
    let rest := deliver files s (m.render s.format)
    { rest with log := log ++ rest.log }

def load (files : Files) (s : Settings) (ns : Namespaces) : Run :=
  match Rdf.ofFile files s.input with
  | .ok d => (build files s ns d).after (loading s.input)
  | .error .malformed => ⟨[loading s.input], .error (.graph .malformed)⟩
  | .error e => ⟨[], .error (.graph e)⟩

def generate (files : Files) (s : Settings) : Run :=
  let run : Run := match s.namespaces files with
    | .error e => ⟨[], .error (.settings e)⟩
    | .ok ns => load files s ns
  run.after (generating s)

def run (files : Files) (env : String → Option String) (arguments : List String) : Run :=
  match CommandLine.read env arguments with
  | .error e => ⟨[], .error (.usage e)⟩
  | .ok c =>
    match Settings.ofChoices files c with
    | .error e => ⟨[], .error (.settings e)⟩
    | .ok s => generate files s

end Command
end OntologyModel

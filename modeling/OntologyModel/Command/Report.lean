/-
What a process shows of a run.

The text of a model goes to the standard output, unless it goes to a file.  A run
that fails shows no text there and ends with a code of its own if the arguments
are at fault; help and the version are no failure.
-/
import OntologyModel.Command.Run

namespace OntologyModel
namespace Command

def versionText : String := Log.serviceName ++ " " ++ Log.serviceVersion ++ "\n"

def helpText : String :=
  "Build a code-generation model from an RDF ontology\n\n" ++
  "Usage: ontology-ir [OPTIONS]\n\n" ++
  "Options:\n" ++
  "      --config <FILE>             Path to a configuration file (YAML or JSON)\n" ++
  "  -i, --input <FILE>              Ontology to read (Turtle, N-Triples, RDF/XML, ...) " ++
  "[env: ONTOLOGY_IR_INPUT=]\n" ++
  "      --context <FILE>            JSON-LD context used to compact identifiers " ++
  "[env: ONTOLOGY_IR_CONTEXT=]\n" ++
  "      --metadata-namespace <IRI>  Namespace of the referenceable and idPropertyName " ++
  "predicates [env: ONTOLOGY_IR_METADATA_NAMESPACE=]\n" ++
  "      --format <FORMAT>           Output format (json or yaml) [env: ONTOLOGY_IR_FORMAT=] " ++
  "[possible values: json, yaml]\n" ++
  "  -o, --output <FILE>             Write the model here instead of stdout " ++
  "[env: ONTOLOGY_IR_OUTPUT=]\n" ++
  "  -h, --help                      Print help\n" ++
  "  -V, --version                   Print version\n"

namespace Failure

def usageText : UsageError → String
  | .unknownArgument => "error: unexpected argument found"
  | .missingValue => "error: a value is required but none was supplied"
  | .invalidValue => "error: invalid value"
  | .repeatedOption => "error: an option cannot be used multiple times"
  | .unexpectedValue => "error: unexpected value for an option that takes none"
  | .helpRequested | .versionRequested => ""

def text : Failure → String
  | .usage e => usageText e
  | e =>
    match e.messages with
    | [] => ""
    | [m] => "Error: " ++ m
    | m :: causes => "Error: " ++ m ++ "\n\nCaused by:\n    " ++ "\n    ".intercalate causes

end Failure

structure Report where
  exitCode : UInt32
  stdout : String
  /-- What is told of a failure; empty if there is none. -/
  complaint : String
  layout : Log.Layout
  lines : List Log.Line
deriving DecidableEq, Repr

/-- The exit code of a run and its text on the standard output. -/
def ending : Except Failure Delivery → UInt32 × String
  | .ok ⟨text, none⟩ => (0, text)
  | .ok ⟨_, some _⟩ => (0, "")
  | .error (.usage .helpRequested) => (0, helpText)
  | .error (.usage .versionRequested) => (0, versionText)
  | .error (.usage _) => (2, "")
  | .error _ => (1, "")

def report (env : String → Option String) (r : Run) : Report :=
  let s := Log.Settings.ofVariables env
  let (exitCode, stdout) := ending r.result
  let complaint := match r.result with
    | .ok _ => ""
    | .error e => e.text
  ⟨exitCode, stdout, complaint, s.layout,
    Log.lines s (s.filter env) (logReady s :: r.log)⟩

end Command
end OntologyModel

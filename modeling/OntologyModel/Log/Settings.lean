/-
How the log of a run is written.

In production the log is for machines, elsewhere for people, unless the variables
say otherwise.
-/
import OntologyModel.Log.Filter

namespace OntologyModel
namespace Log

def serviceName : String := "ontology-ir"

def serviceVersion : String := "0.1.0"

inductive Layout where
  /-- One JSON object per event. -/
  | json
  /-- Lines for people. -/
  | pretty
deriving DecidableEq, Repr

structure Settings where
  layout : Layout
  environment : String
  /-- Whether the ends of spans are shown. -/
  spanEvents : Bool
deriving DecidableEq, Repr

def isProduction (environment : String) : Bool :=
  environment = "production" || environment = "prod"

namespace Settings

def ofVariables (env : String → Option String) : Settings :=
  let environment := ((env "ENVIRONMENT").or (env "ENV")).getD "development"
  let usual := if isProduction environment then Layout.json else .pretty
  let layout := match (env "LOG_FORMAT").map Text.lower with
    | some "json" => .json
    | some "pretty" => .pretty
    | _ => usual
  let spanEvents := ["1", "true", "yes"].contains
    (((env "LOG_SPAN_EVENTS").map Text.lower).getD "")
  ⟨layout, environment, spanEvents⟩

def usualFilter (s : Settings) : Filter :=
  if isProduction s.environment then
    [⟨none, some .warn⟩, ⟨some "ontology_ir", some .info⟩]
  else [⟨none, some .info⟩]

/-- The filter that variables ask for.  One that cannot be read counts for
nothing. -/
def filter (s : Settings) (env : String → Option String) : Filter :=
  ((env "RUST_LOG").bind Filter.parse?).getD s.usualFilter

end Settings

structure Line where
  level : Level
  target : String
  message : String
  fields : List (String × FieldValue)
  /-- The name of the span around it. -/
  span : Option String
deriving DecidableEq, Repr

/-- The line of a record, if it is shown.  A span that is not shown itself is not
named. -/
def line? (s : Settings) (f : Filter) : Record → Option Line
  | .event e inside =>
    if f.shows e.level e.target then
      some ⟨e.level, e.target, e.message, e.fields,
        (inside.filter fun span => f.shows span.level span.target).map Span.name⟩
    else none
  | .opened span =>
    if s.spanEvents && f.shows span.level span.target then
      some ⟨span.level, span.target, "new", [], some span.name⟩
    else none
  | .closed span =>
    if s.spanEvents && f.shows span.level span.target then
      some ⟨span.level, span.target, "close", [], some span.name⟩
    else none

def lines (s : Settings) (f : Filter) (log : List Record) : List Line :=
  log.filterMap (line? s f)

end Log
end OntologyModel

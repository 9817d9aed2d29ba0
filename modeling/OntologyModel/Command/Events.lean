/-
What a run of the command logs.

The construction of a model is a span of its own, and what it notes is logged
inside.

The fields of a record are texts and counts.  Fields in a debugging form are left
out: the layout of the log when it is ready, the form of a graph when it is loaded,
and the range of a resolved property, which its finding does have.
-/
import OntologyModel.Log.Settings
import OntologyModel.Model.Construction
import OntologyModel.Settings.Resolution

namespace OntologyModel
namespace Command

open Log

def buildSpan : Span := ⟨"build_model", .info, "ontology_ir::model"⟩

def logReady (s : Log.Settings) : Record :=
  .event ⟨.debug, "ontology_ir::logging", "logging initialized",
    [("service", .text serviceName), ("version", .text serviceVersion),
      ("environment", .text s.environment)]⟩ none

def generating (s : OntologyModel.Settings) : Record :=
  .event ⟨.info, "ontology_ir", "generating model",
    [("input", .text s.input), ("format", .text s.format.word)]⟩ none

def loading (path : String) : Record :=
  .event ⟨.debug, "ontology_ir::ontology::graph", "loading graph", [("path", .text path)]⟩ none

def event : Finding → Event
  | .anonymousClass node =>
    ⟨.debug, "ontology_ir::model::classify", "skipping anonymous class expression",
      [("node", .text node.display)]⟩
  | .structuralClass cls =>
    ⟨.debug, "ontology_ir::model::classify", "structural class", [("class", .text cls)]⟩
  | .enumerationClass cls values =>
    ⟨.debug, "ontology_ir::model::classify", "enumeration class",
      [("class", .text cls), ("values", .count values)]⟩
  | .ignoredSuperclass cls parent =>
    ⟨.debug, "ontology_ir::model::class", "ignoring non-structural superclass",
      [("class", .text cls), ("parent", .text parent)]⟩
  | .resolvedProperty cls property _ =>
    ⟨.debug, "ontology_ir::model::property", "resolved property",
      [("class", .text cls), ("property", .text property)]⟩
  | .modelConstructed enums classes compactedIds =>
    ⟨.info, "ontology_ir::model", "model constructed",
      [("enums", .count enums), ("classes", .count classes),
        ("compacted_ids", .count compactedIds)]⟩

def building (findings : List Finding) : List Record :=
  .opened buildSpan :: (findings.map fun f => .event (event f) (some buildSpan)) ++
    [.closed buildSpan]

def failing (e : ModelError) : Record :=
  .event ⟨.error, "ontology_ir", "model construction failed",
    [("code", .text e.code), ("error", .text e.message)]⟩ none

def written (path : String) : Record :=
  .event ⟨.info, "ontology_ir", "model written", [("output", .text path)]⟩ none

end Command
end OntologyModel

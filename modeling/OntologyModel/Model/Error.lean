/-
Why no model can be built from a graph.

Every error ends the construction where it is found.
-/
import OntologyModel.Graph.Source

namespace OntologyModel

inductive ModelError where
  | unknownReferenceableValue (cls value : String)
  | unknownRangeRestriction (cls property target : String)
  | missingPropertyRange (cls property : String)
  | missingPropertyPath (cls shape : String)
  | invalidCardinality (cls property predicate value : String)
  /-- The ids along the cycle, the first one again at the end. -/
  | cyclicClassHierarchy (cycle : List String)
  | graph (cause : GraphError)
deriving DecidableEq, Repr

namespace ModelError

def code : ModelError → String
  | .unknownReferenceableValue .. => "unknown_referenceable_value"
  | .unknownRangeRestriction .. => "unknown_range_restriction"
  | .missingPropertyRange .. => "missing_property_range"
  | .missingPropertyPath .. => "missing_property_path"
  | .invalidCardinality .. => "invalid_cardinality"
  | .cyclicClassHierarchy .. => "cyclic_class_hierarchy"
  | .graph .. => "graph_error"

def message : ModelError → String
  | .unknownReferenceableValue cls value =>
    "class " ++ cls ++ " has unknown referenceable value '" ++ value ++ "'"
  | .unknownRangeRestriction cls property target =>
    "property " ++ property ++ " of class " ++ cls ++ " has unknown class restriction " ++ target
  | .missingPropertyRange cls property =>
    "property '" ++ property ++ "' of class " ++ cls ++ " is missing range"
  | .missingPropertyPath cls shape =>
    "property shape " ++ shape ++ " of class " ++ cls ++ " has no sh:path"
  | .invalidCardinality cls property predicate value =>
    "property " ++ property ++ " of class " ++ cls ++ " has invalid " ++ predicate ++ " value '" ++
      value ++ "'"
  | .cyclicClassHierarchy cycle => "cyclic class hierarchy: " ++ " -> ".intercalate cycle
  | .graph cause => cause.message

end ModelError
end OntologyModel

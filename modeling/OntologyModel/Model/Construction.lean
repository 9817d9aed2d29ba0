/-
The construction of a model.

First the graph is read: the kinds of its classes, then the description of each
structural class in ascending order of id.  Then everything is named, which asks
the context and no longer the graph.  At last the classes are linked to their
derived classes and put into order.  The first error ends the construction, and
no part of a model is returned.
-/
import OntologyModel.Model.Derived
import OntologyModel.Model.Description
import OntologyModel.Model.Precedence

namespace OntologyModel

structure ModelFacts where
  kinds : Kinds
  classes : List ClassFacts
deriving DecidableEq, Repr

namespace ModelFacts

def ofGraph (m : Metadata) : Inquiry ModelFacts := do
  let kinds ← Kinds.ofGraph
  let classes ← ClassFacts.readAll kinds m kinds.classIds
  return ⟨kinds, classes⟩

def named (f : ModelFacts) : Naming Model := do
  let enums ← EnumFacts.allNamed f.kinds.enums
  let classes ← ClassFacts.allNamed f.classes
  return ⟨enums, classes⟩

end ModelFacts

namespace Model

def arrange (m : Model) : Except ModelError Model := do
  let classes ← Precedence.order (Class.linkDerived m.classes)
  return { m with classes }

def construction (context : String → String) (metadata : Metadata) : Inquiry Model := do
  let facts ← ModelFacts.ofGraph metadata
  let (draft, names) := facts.named.run (.ofContext context)
  match draft.arrange with
  | .error e => .failure e
  | .ok model =>
    Inquiry.found (.modelConstructed model.enums.length model.classes.length names.size)
    return model

/-- The model of a graph, or the first error met. -/
def build (g : Source) (context : String → String) (metadata : Metadata) :
    Except ModelError Model :=
  (construction context metadata).run g

end Model
end OntologyModel

/-
Datasets: lists of quads, read as a set.

A quad without a graph name is a triple of the default graph, and only those are
seen by questions.  Answers are in ascending order and free of repetition,
whatever the order of the quads; literals that agree in their stored text are one
node.  No triple has a literal for its subject, so a literal subject has no
objects, and because answers do not tell literals of different kinds apart, a
literal object is never looked up.
-/
import OntologyModel.Graph.Literal
import OntologyModel.Graph.Source

namespace OntologyModel

/-- The subject of a quad, or the name of its graph. -/
inductive Resource where
  | iri (text : String)
  | blank (id : String)
deriving DecidableEq, Repr

namespace Resource

def node : Resource → Node
  | .iri t => .iri t
  | .blank id => .blank id

end Resource

inductive Term where
  | resource (r : Resource)
  | literal (text : String) (tag : LiteralTag)
deriving DecidableEq, Repr

namespace Term

def node : Term → Node
  | .resource r => r.node
  | .literal text tag => .literal (Literal.storedText text tag)

end Term

structure Quad where
  subject : Resource
  predicate : String
  object : Term
  graph : Option Resource := none
deriving DecidableEq, Repr

structure Triple where
  subject : Node
  predicate : String
  object : Node
deriving DecidableEq, Repr

namespace Triple

def answer (ts : List Triple) : Question → List Node
  | .subjects _ (.literal _) => []
  | .subjects p o =>
    Text.ascending Node.before
      (ts.filterMap fun t => if t.predicate = p && t.object = o then some t.subject else none)
  | .objects s p =>
    Text.ascending Node.before
      (ts.filterMap fun t => if t.subject = s && t.predicate = p then some t.object else none)

def source (ts : List Triple) : Source where
  answer q := .ok (answer ts q)

end Triple

abbrev Dataset := List Quad

namespace Dataset

/-- The triples of the default graph as nodes. -/
def triples (d : Dataset) : List Triple :=
  (d.filter fun q => q.graph.isNone).map fun q => ⟨q.subject.node, q.predicate, q.object.node⟩

def source (d : Dataset) : Source :=
  Triple.source d.triples

end Dataset
end OntologyModel

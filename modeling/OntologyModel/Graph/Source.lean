/-
Questions to a graph.

Everything that is read from a graph is the answer to one of two questions: who
points at an object through a predicate, and what does a subject point at
through one.  A source answers them with nodes in ascending order, or fails.
-/
import OntologyModel.Graph.Node

namespace OntologyModel

/-- Why there is no graph or no answer.  Graphs are held in memory, so that no
error stands for a store that fails, and what a reader says of a malformed text is
not told. -/
inductive GraphError where
  | unreadable (path : String) (cause : String)
  | malformed
deriving DecidableEq, Repr

namespace GraphError

def message : GraphError → String
  | .unreadable path cause => "failed to read graph file " ++ path ++ ": " ++ cause
  | .malformed => "failed to parse graph"

end GraphError

inductive Question where
  /-- Every `s` with `(s, predicate, object)` in the graph. -/
  | subjects (predicate : String) (object : Node)
  /-- Every `o` with `(subject, predicate, o)` in the graph. -/
  | objects (subject : Node) (predicate : String)
deriving DecidableEq, Repr

namespace Question

def predicate : Question → String
  | .subjects p _ => p
  | .objects _ p => p

end Question

structure Source where
  answer : Question → Except GraphError (List Node)

namespace Source

def subjects (g : Source) (predicate : String) (object : Node) : Except GraphError (List Node) :=
  g.answer (.subjects predicate object)

def objects (g : Source) (subject : Node) (predicate : String) : Except GraphError (List Node) :=
  g.answer (.objects subject predicate)

def asserts (g : Source) (subject : Node) (predicate : String) (object : Node) :
    Except GraphError Bool := do
  return (← g.objects subject predicate).contains object

/-- The least object of a subject and a predicate. -/
def value (g : Source) (subject : Node) (predicate : String) : Except GraphError (Option Node) := do
  return (← g.objects subject predicate).head?

def refusing (g : Source) (predicates : List String) : Source where
  answer q :=
    if predicates.contains q.predicate then
      .error (.unreadable "graph" ("refused " ++ q.predicate))
    else g.answer q

end Source
end OntologyModel

/-
Nodes of a graph, as a reader of the graph sees them.

A literal is known by its text alone; language and datatype play no part in what
is read from it.  Nodes are ordered by kind first: IRIs, then blank nodes, then
literals, and nodes of one kind by their text.
-/
import OntologyModel.Text.Order

namespace OntologyModel

inductive Node where
  | iri (text : String)
  | blank (id : String)
  | literal (text : String)
deriving DecidableEq, Repr

namespace Node

/-- The IRI, the id of a blank node or the text of a literal, undecorated. -/
def text : Node → String
  | .iri t | .blank t | .literal t => t

def iri? : Node → Option String
  | .iri t => some t
  | _ => none

def rank : Node → Nat
  | .iri _ => 0
  | .blank _ => 1
  | .literal _ => 2

/-- The order of nodes: by kind, then by text. -/
def before (a b : Node) : Bool :=
  a.rank < b.rank || (a.rank = b.rank && Text.before a.text b.text)

/-- The text of a node in messages; the id of a blank node is marked as such. -/
def display : Node → String
  | .blank id => "_:" ++ id
  | n => n.text

theorem eq_of_rank_text {a b : Node} (hr : a.rank = b.rank) (ht : a.text = b.text) : a = b := by
  cases a <;> cases b <;> simp_all [rank, text]

end Node
end OntologyModel

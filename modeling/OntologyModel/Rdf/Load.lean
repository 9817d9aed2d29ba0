/-
Reading a graph from a text or a file.

The form of a file is told from the extension of its name, in any case of
letters; a file whose extension says nothing is taken for Turtle.

RDF/XML, JSON-LD and N3 are forms of graphs as well.  They are not read here, so
that their extensions say nothing.
-/
import OntologyModel.Files.Tree
import OntologyModel.Rdf.Lines

namespace OntologyModel
namespace Rdf

inductive Form where
  | turtle
  | triples
  | quads
  | graphs
deriving DecidableEq, Repr

namespace Form

def ofExtension? (extension : String) : Option Form :=
  match Text.lower extension with
  | "ttl" => some .turtle
  | "nt" | "txt" => some .triples
  | "nq" => some .quads
  | "trig" => some .graphs
  | _ => none

def ofPath (path : String) : Form :=
  ((Path.extension? path).bind ofExtension?).getD .turtle

def parse? : Form → String → Option Dataset
  | .turtle, text => Turtle.parse? false text
  | .triples, text => Lines.parse? false text
  | .quads, text => Lines.parse? true text
  | .graphs, text => Turtle.parse? true text

end Form

def ofText (form : Form) (text : String) : Except GraphError Dataset :=
  match form.parse? text with
  | some d => .ok d
  | none => .error .malformed

/-- The graph of a file.  A directory can be opened, but holds no graph. -/
def ofFile (files : Files) (path : String) : Except GraphError Dataset :=
  match files.entry path with
  | .ok (.file text) => ofText (.ofPath path) text
  | .ok .directory => .error .malformed
  | .error e => .error (.unreadable path e.message)

end Rdf
end OntologyModel

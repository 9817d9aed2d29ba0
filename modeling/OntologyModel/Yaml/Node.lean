/-
The nodes of a YAML document.

A scalar keeps its text, its tag and whether it was written plainly; what it
stands for is up to its reader.
-/
import OntologyModel.Yaml.Resolution

namespace OntologyModel
namespace Yaml

inductive Node where
  | scalar (plain : Bool) (tag : Option String) (text : String)
  | sequence (items : List Node)
  | mapping (entries : List (Node × Node))
deriving Repr

namespace Node

/-- The node that stands where nothing is written. -/
def empty : Node := .scalar true none ""

def nullTag : String := "tag:yaml.org,2002:null"

/-- Gives a node a tag.  The tags of collections say nothing. -/
def withTag (tag : Option String) : Node → Node
  | .scalar plain none text => .scalar plain tag text
  | n => n

def text? : Node → Option String
  | .scalar _ _ s => some s
  | _ => none

def isEmpty : Node → Bool
  | .scalar true _ s => s = ""
  | _ => false

end Node
end Yaml
end OntologyModel

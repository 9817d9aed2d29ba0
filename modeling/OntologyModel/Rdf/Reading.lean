/-
The state of a reader of graph text.

Blank nodes get new ids, numbered in the order in which they come up; a label
stands for one node throughout a text.  An id has 32 hexadecimal digits, so that
ids are ordered like their numbers.
-/
import OntologyModel.Graph.Dataset
import OntologyModel.Iri.Resolution
import OntologyModel.Json.Printer
import OntologyModel.Rdf.LanguageTag
import OntologyModel.Rdf.Token

namespace OntologyModel
namespace Rdf

structure Reading where
  tokens : List Token
  base : Option (List Char) := none
  /-- Declared prefixes, the latest declaration first. -/
  spaces : List (String × String) := []
  /-- The ids of labelled blank nodes. -/
  labels : List (String × String) := []
  /-- How many blank nodes have come up. -/
  blanks : Nat := 0
  graph : Option Resource := none
  /-- The quads read so far, the last one first. -/
  quads : List Quad := []

/-- A step of a reader; none if the text is malformed. -/
abbrev Reader := StateT Reading Option

def hexText : Nat → Nat → List Char
  | 0, _ => []
  | width + 1, n => hexText width (n / 16) ++ [Json.hexDigit (n % 16)]

def blankId (n : Nat) : String := String.ofList ('b' :: hexText 31 n)

namespace Reader

def fail {α : Type} : Reader α := fun _ => none

def peek : Reader (Option Token) := fun r => some (r.tokens.head?, r)

def next : Reader Token := fun r =>
  match r.tokens with
  | t :: ts => some (t, { r with tokens := ts })
  | [] => none

def expect (t : Token) : Reader Unit := do
  if (← next) = t then return else fail

/-- Takes the next token if it is a certain one, and says whether it was. -/
def accept (t : Token) : Reader Bool := do
  if (← peek) = some t then
    let _ ← next
    return true
  else return false

def freshBlank : Reader Resource := fun r =>
  some (.blank (blankId r.blanks), { r with blanks := r.blanks + 1 })

def labelledBlank (label : String) : Reader Resource := fun r =>
  match r.labels.lookup label with
  | some id => some (.blank id, r)
  | none =>
    let id := blankId r.blanks
    some (.blank id, { r with blanks := r.blanks + 1, labels := (label, id) :: r.labels })

def resolve (reference : List Char) : Reader String := fun r =>
  (Iri.ofReference? r.base reference).map fun i => (String.ofList i, r)

def expand (label part : String) : Reader String := fun r =>
  match r.spaces.lookup label with
  | some space =>
    let iri := space ++ part
    if Iri.isAbsolute iri.toList then some (iri, r) else none
  | none => none

def emit (subject : Resource) (predicate : String) (object : Term) : Reader Unit := fun r =>
  some ((), { r with quads := ⟨subject, predicate, object, r.graph⟩ :: r.quads })

end Reader
end Rdf
end OntologyModel

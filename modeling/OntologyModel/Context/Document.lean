/-
The context of a JSON-LD document.

The context stands under `@context`, or is the document itself.  Arrays of
contexts are applied in order, and the terms of an object in ascending order of
name.  A term with a string value binds a prefix, `@vocab` names the default
vocabulary; other keywords, aliases of keywords and terms defined by objects bind
nothing.  A string in place of a context refers to a document elsewhere and is
passed over, and so is null.
-/
import OntologyModel.Context.Namespaces
import OntologyModel.Json.Printer

namespace OntologyModel
namespace Namespaces

def isKeyword (s : String) : Bool := s.toList.head? = some '@'

def applyTerm (ns : Namespaces) (term : String) (definition : Json.Value) :
    Except ContextError Namespaces :=
  match definition with
  | .text iri =>
    if term = "@vocab" then .ok (ns.setVocabulary iri)
    else if isKeyword term || isKeyword iri then .ok ns
    else ns.register term iri
  | _ => .ok ns

def applyTerms (ns : Namespaces) : List (String × Json.Value) → Except ContextError Namespaces
  | [] => .ok ns
  | (term, definition) :: rest =>
    match ns.applyTerm term definition with
    | .ok ns' => applyTerms ns' rest
    | .error e => .error e

mutual
def applyContext (ns : Namespaces) : Json.Value → Except ContextError Namespaces
  | .array items => applyContexts ns items
  | .object members => ns.applyTerms (Json.Value.entries members)
  | .text _ => .ok ns
  | .null => .ok ns
  | .bool b => .error (.invalidDocument (String.ofList (Json.Value.bool b).compact))
  | .number n => .error (.invalidDocument (String.ofList (Json.Value.number n).compact))

def applyContexts (ns : Namespaces) : List Json.Value → Except ContextError Namespaces
  | [] => .ok ns
  | v :: rest =>
    match applyContext ns v with
    | .ok ns' => applyContexts ns' rest
    | .error e => .error e
end

/-- The value that holds the context of a document. -/
def contextRoot (document : Json.Value) : Json.Value :=
  (document.member? "@context").getD document

def ofDocument (document : Json.Value) : Except ContextError Namespaces :=
  applyContext empty (contextRoot document)

end Namespaces
end OntologyModel

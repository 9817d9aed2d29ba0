/-
The two kinds of declared classes.

A class is an enumeration when at least one of its instances is a named
individual with an IRI; those individuals are its values.  Every other declared
class is structural.  Class expressions without an IRI are neither.
-/
import OntologyModel.Graph.Vocabulary
import OntologyModel.Model.Inquiry
import OntologyModel.Text.CommonPrefix

namespace OntologyModel

structure EnumFacts where
  id : String
  values : List EnumValue
  comment : String
deriving DecidableEq, Repr

/-- The declared classes by kind, each kind in ascending order of id. -/
structure Kinds where
  enums : List EnumFacts
  classIds : List String
deriving DecidableEq, Repr

namespace Kinds

def enumIds (k : Kinds) : List String := k.enums.map EnumFacts.id

def isEnum (k : Kinds) (id : String) : Bool := k.enumIds.contains id

def isClass (k : Kinds) (id : String) : Bool := k.classIds.contains id

def empty : Kinds := ⟨[], []⟩

def valueBefore (a b : EnumValue) : Bool := Text.before a.id b.id

def enumBefore (a b : EnumFacts) : Bool := Text.before a.id b.id

/-- The value that an individual of an enumeration stands for.  It is named by
its label, or else by what its id does not share with the id of the class. -/
def enumValue (classId valueId : String) : Inquiry EnumValue := do
  let label ← Inquiry.value (.iri valueId) Vocabulary.rdfsLabel
  let comment ← Inquiry.textOrEmpty (.iri valueId) Vocabulary.rdfsComment
  let name := (label.map Node.text).getD (Text.removeCommonPrefix valueId [classId])
  return ⟨valueId, name, comment⟩

def valuesAmong (classId : String) : List Node → Inquiry (List EnumValue)
  | [] => return []
  | individual :: rest => do
    let named ← Inquiry.asserts individual Vocabulary.rdfType (.iri Vocabulary.owlNamedIndividual)
    match named, individual with
    | true, .iri valueId =>
      let v ← enumValue classId valueId
      return v :: (← valuesAmong classId rest)
    | _, _ => valuesAmong classId rest

def enumValues (classId : String) : Inquiry (List EnumValue) := do
  let instances ← Inquiry.subjects Vocabulary.rdfType (.iri classId)
  return Text.sortStable valueBefore (← valuesAmong classId instances)

def declare (k : Kinds) (classId : String) : Inquiry Kinds := do
  let values ← enumValues classId
  if values.isEmpty then
    Inquiry.found (.structuralClass classId)
    return { k with classIds := Text.insertDistinct Text.before classId k.classIds }
  else
    Inquiry.found (.enumerationClass classId values.length)
    let comment ← Inquiry.textOrEmpty (.iri classId) Vocabulary.rdfsComment
    return { k with enums := k.enums ++ [⟨classId, values, comment⟩] }

def declareAll (k : Kinds) : List Node → Inquiry Kinds
  | [] => return k
  | .iri classId :: rest => do
    let k' ← k.declare classId
    declareAll k' rest
  | node :: rest => do
    Inquiry.found (.anonymousClass node)
    declareAll k rest

def ofGraph : Inquiry Kinds := do
  let declared ← Inquiry.subjects Vocabulary.rdfType (.iri Vocabulary.owlClass)
  let k ← declareAll empty declared
  return { k with enums := Text.sortStable enumBefore k.enums }

end Kinds
end OntologyModel

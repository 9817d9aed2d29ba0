/-
Descriptions of structural classes.

A class is described by its two metadata predicates, its superclasses, its
property shapes and its comment, which are read in this order.  Only superclasses
that are structural classes count; a class that names itself among them is a
cycle of its own.
-/
import OntologyModel.Model.Shape

namespace OntologyModel

structure ClassFacts where
  id : String
  refable : Refable
  idProperty : Option String
  parentIds : List String
  /-- In the order of the shapes. -/
  properties : List PropertyFacts
  comment : String
deriving DecidableEq, Repr

namespace ClassFacts

/-- How instances may be referred to; optional unless the graph says otherwise. -/
def readRefable (m : Metadata) (classId : String) : Inquiry Refable := do
  match ← Inquiry.value (.iri classId) m.referenceable with
  | none => return .optional
  | some v =>
    match Refable.ofWord? v.text with
    | some r => return r
    | none => .failure (.unknownReferenceableValue classId v.text)

/-- The structural classes among some superclasses, in their order. -/
def parentsAmong (k : Kinds) (classId : String) : List Node → Inquiry (List String)
  | [] => return []
  | .iri parent :: rest =>
    if k.isClass parent then
      if parent = classId then .failure (.cyclicClassHierarchy [classId, classId])
      else do return parent :: (← parentsAmong k classId rest)
    else do
      Inquiry.found (.ignoredSuperclass classId parent)
      parentsAmong k classId rest
  | _ :: rest => parentsAmong k classId rest

def readParents (k : Kinds) (classId : String) : Inquiry (List String) := do
  let superclasses ← Inquiry.objects (.iri classId) Vocabulary.rdfsSubClassOf
  return Text.ascendingTexts (← parentsAmong k classId superclasses)

def read (k : Kinds) (m : Metadata) (classId : String) : Inquiry ClassFacts := do
  let refable ← readRefable m classId
  let idProperty ← Inquiry.value (.iri classId) m.idPropertyName
  let parentIds ← readParents k classId
  let properties ← Shape.properties k classId
  let comment ← Inquiry.textOrEmpty (.iri classId) Vocabulary.rdfsComment
  return ⟨classId, refable, idProperty.map Node.text, parentIds, properties, comment⟩

def readAll (k : Kinds) (m : Metadata) : List String → Inquiry (List ClassFacts)
  | [] => return []
  | classId :: rest => do
    let c ← read k m classId
    return c :: (← readAll k m rest)

def named (c : ClassFacts) : Naming Class := do
  let properties ← PropertyFacts.ordered c.id c.properties
  let className ← Naming.className c.id
  return ⟨c.id, className, c.parentIds, [], properties, c.comment, c.idProperty, c.refable⟩

def allNamed : List ClassFacts → Naming (List Class)
  | [] => return []
  | c :: rest => do
    let d ← c.named
    return d :: (← allNamed rest)

end ClassFacts

namespace EnumFacts

def named (e : EnumFacts) : Naming Enum := do
  return ⟨e.id, ← Naming.className e.id, e.values, e.comment⟩

def allNamed : List EnumFacts → Naming (List Enum)
  | [] => return []
  | e :: rest => do
    let d ← e.named
    return d :: (← allNamed rest)

end EnumFacts
end OntologyModel

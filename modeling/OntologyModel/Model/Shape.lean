/-
Property shapes.

A shape says of a class which property it has and what values.  The value type
comes from the first of three sources that speaks: a class restriction on the
shape, which has to name a known enumeration or class; a datatype on the shape,
with its pattern; the range declared for the property, which is a datatype unless
it is a known enumeration or class.
-/
import OntologyModel.Model.Count
import OntologyModel.Model.Kinds
import OntologyModel.Names.Table

namespace OntologyModel

structure PropertyFacts where
  path : String
  givenName : Option String
  comment : String
  minCount : Option UInt64
  maxCount : Option UInt64
  range : Range
deriving DecidableEq, Repr

namespace Shape

def reference? (k : Kinds) (id : String) : Option Range :=
  if k.isEnum id then some (.enumeration id)
  else if k.isClass id then some (.structural id)
  else none

def range (k : Kinds) (classId : String) (shape : Node) (path : String) : Inquiry Range := do
  match ← Inquiry.value shape Vocabulary.shClass with
  | some target =>
    match reference? k target.text with
    | some r => return r
    | none => .failure (.unknownRangeRestriction classId path target.text)
  | none =>
    match ← Inquiry.value shape Vocabulary.shDatatype with
    | some datatype =>
      let pattern ← Inquiry.value shape Vocabulary.shPattern
      return .datatype datatype.text (pattern.map Node.text)
    | none =>
      match ← Inquiry.value (.iri path) Vocabulary.rdfsRange with
      | some declared =>
        return (reference? k declared.text).getD (.datatype declared.text none)
      | none => .failure (.missingPropertyRange classId path)

def count (classId : String) (shape : Node) (path predicate : String) :
    Inquiry (Option UInt64) := do
  match ← Inquiry.value shape predicate with
  | none => return none
  | some v =>
    match Count.ofText? v.text with
    | some n => return some n
    | none => .failure (.invalidCardinality classId path predicate v.text)

def property (k : Kinds) (classId : String) (shape : Node) : Inquiry PropertyFacts := do
  match ← Inquiry.value shape Vocabulary.shPath with
  | some (.iri path) =>
    let givenName ← Inquiry.value shape Vocabulary.shName
    let range ← range k classId shape path
    Inquiry.found (.resolvedProperty classId path range)
    let comment ← Inquiry.textOrEmpty (.iri path) Vocabulary.rdfsComment
    let minCount ← count classId shape path Vocabulary.shMinCount
    let maxCount ← count classId shape path Vocabulary.shMaxCount
    return ⟨path, givenName.map Node.text, comment, minCount, maxCount, range⟩
  | _ => .failure (.missingPropertyPath classId shape.display)

def propertiesOf (k : Kinds) (classId : String) : List Node → Inquiry (List PropertyFacts)
  | [] => return []
  | shape :: rest => do
    let p ← property k classId shape
    return p :: (← propertiesOf k classId rest)

def properties (k : Kinds) (classId : String) : Inquiry (List PropertyFacts) := do
  propertiesOf k classId (← Inquiry.objects (.iri classId) Vocabulary.shProperty)

end Shape

namespace PropertyFacts

/-- The name of a property: the given one, or the short form of its path, or the
path without what it shares with the id of the class. -/
def name (classId : String) (p : PropertyFacts) : Naming String :=
  match p.givenName with
  | some n => return n
  | none => Naming.compactOr p.path (Text.removeCommonPrefix p.path [classId])

def named (classId : String) (p : PropertyFacts) : Naming Property := do
  return ⟨p.path, ← p.name classId, p.comment, p.minCount, p.maxCount, p.range⟩

def allNamed (classId : String) : List PropertyFacts → Naming (List Property)
  | [] => return []
  | p :: rest => do
    let q ← p.named classId
    return q :: (← allNamed classId rest)

end PropertyFacts

namespace Property

def before (a b : Property) : Bool :=
  Text.before a.path b.path || (a.path = b.path && Text.before a.name b.name)

end Property

namespace PropertyFacts

def ordered (classId : String) (ps : List PropertyFacts) : Naming (List Property) := do
  return Text.sortStable Property.before (← allNamed classId ps)

end PropertyFacts
end OntologyModel

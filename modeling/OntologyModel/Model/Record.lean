/-
The records of a model.

A model lists enumerations and classes.  A class has properties, and the value
type of a property is an enumeration, a class or a datatype.
-/
namespace OntologyModel

structure EnumValue where
  id : String
  name : String
  comment : String
deriving DecidableEq, Repr

structure Enum where
  id : String
  className : String
  values : List EnumValue
  comment : String
deriving DecidableEq, Repr

inductive Range where
  | enumeration (id : String)
  | structural (id : String)
  | datatype (iri : String) (pattern : Option String)
deriving DecidableEq, Repr

namespace Range

def enumId? : Range → Option String
  | .enumeration id => some id
  | _ => none

def classId? : Range → Option String
  | .structural id => some id
  | _ => none

def datatype? : Range → Option String
  | .datatype iri _ => some iri
  | _ => none

end Range

/-- A property; counts are unsigned words of 64 bits. -/
structure Property where
  path : String
  name : String
  comment : String
  minCount : Option UInt64
  maxCount : Option UInt64
  range : Range
deriving DecidableEq, Repr

inductive Refable where
  | no
  | local
  | optional
  | yes
  | always
deriving DecidableEq, Repr

namespace Refable

def word : Refable → String
  | .no => "no"
  | .local => "local"
  | .optional => "optional"
  | .yes => "yes"
  | .always => "always"

def all : List Refable := [.no, .local, .optional, .yes, .always]

def ofWord? (s : String) : Option Refable := all.find? fun r => r.word = s

theorem ofWord?_word (r : Refable) : ofWord? r.word = some r := by
  cases r <;> decide

theorem word_of_ofWord? {s : String} {r : Refable} (h : ofWord? s = some r) : r.word = s := by
  simpa using List.find?_some h

end Refable

structure Class where
  id : String
  className : String
  parentIds : List String
  derivedIds : List String
  properties : List Property
  comment : String
  idProperty : Option String
  refable : Refable
deriving DecidableEq, Repr

/-- Enumerations and classes, the classes after all of their parents. -/
structure Model where
  enums : List Enum
  classes : List Class
deriving DecidableEq, Repr

namespace Model

def enumById? (m : Model) (id : String) : Option Enum := m.enums.find? fun e => e.id = id

def classById? (m : Model) (id : String) : Option Class := m.classes.find? fun c => c.id = id

end Model
end OntologyModel

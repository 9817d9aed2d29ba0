/-
A model as a document, and its text.

The fields of a record stand in a fixed order.  Enumerations come before classes,
and a value type is tagged with its kind.
-/
import OntologyModel.Json.Printer
import OntologyModel.Model.Record
import OntologyModel.Yaml.Printer

namespace OntologyModel

inductive Format where
  | json
  | yaml
deriving DecidableEq, Repr

namespace Format

def word : Format → String
  | .json => "json"
  | .yaml => "yaml"

/-- The format that a word names; YAML has a second, shorter name. -/
def ofWord? (s : String) : Option Format :=
  if s = "json" then some .json
  else if s = "yaml" || s = "yml" then some .yaml
  else none

end Format

open Json (Value)

def optionalText (s : Option String) : Value := (s.map Value.text).getD .null

def optionalCount (n : Option UInt64) : Value :=
  (n.map fun n => Value.number (.whole n.toNat)).getD .null

namespace EnumValue

def document (v : EnumValue) : Value :=
  .object [("id", .text v.id), ("name", .text v.name), ("comment", .text v.comment)]

end EnumValue

namespace Enum

def document (e : Enum) : Value :=
  .object [("id", .text e.id), ("class_name", .text e.className),
    ("values", .array (e.values.map EnumValue.document)), ("comment", .text e.comment)]

end Enum

namespace Range

def document : Range → Value
  | .enumeration id => .object [("kind", .text "enum_ref"), ("enum_id", .text id)]
  | .structural id => .object [("kind", .text "class_ref"), ("class_id", .text id)]
  | .datatype iri pattern =>
    .object [("kind", .text "datatype"), ("datatype", .text iri),
      ("pattern", optionalText pattern)]

end Range

namespace Property

def document (p : Property) : Value :=
  .object [("path", .text p.path), ("name", .text p.name), ("comment", .text p.comment),
    ("min_count", optionalCount p.minCount), ("max_count", optionalCount p.maxCount),
    ("range", p.range.document)]

end Property

namespace Class

def document (c : Class) : Value :=
  .object [("id", .text c.id), ("class_name", .text c.className),
    ("parent_ids", .array (c.parentIds.map .text)),
    ("derived_ids", .array (c.derivedIds.map .text)),
    ("properties", .array (c.properties.map Property.document)),
    ("comment", .text c.comment), ("id_property", optionalText c.idProperty),
    ("refable", .text c.refable.word)]

end Class

namespace Model

def document (m : Model) : Value :=
  .object [("enums", .array (m.enums.map Enum.document)),
    ("classes", .array (m.classes.map Class.document))]

/-- The text of a model, which ends in one line feed. -/
def render (m : Model) : Format → String
  | .json => String.ofList (m.document.pretty 0 ++ ['\n'])
  | .yaml => Yaml.document m.document

end Model
end OntologyModel

/-
The text of the lines of a log.

A line has neither a time nor the place in the program that it comes from.
-/
import OntologyModel.Json.Printer
import OntologyModel.Log.Settings

namespace OntologyModel
namespace Log

namespace FieldValue

def document : FieldValue → Json.Value
  | .text s => .text s
  | .count n => .number (.whole n)

def sentence : FieldValue → String
  | .text s => s
  | .count n => toString n

end FieldValue

namespace Line

def document (l : Line) : Json.Value :=
  .object ([("level", .text l.level.name),
    ("fields", .object (("message", .text l.message) ::
      l.fields.map fun f => (f.1, f.2.document))),
    ("target", .text l.target)] ++
    match l.span with
    | some name => [("span", .object [("name", .text name)])]
    | none => [])

def sentence (l : Line) : String :=
  let span := match l.span with
    | some name => name ++ ": "
    | none => ""
  ", ".intercalate ((l.level.name ++ " " ++ l.target ++ ": " ++ span ++ l.message) ::
    l.fields.map fun f => f.1 ++ ": " ++ f.2.sentence)

def render (l : Line) : Layout → String
  | .json => String.ofList l.document.compact
  | .pretty => l.sentence

end Line
end Log
end OntologyModel

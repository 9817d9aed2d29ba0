/-
YAML text in block style.

The fields of a mapping stand one under the other.  A sequence that is the value
of a field is not indented under it, and a mapping in a sequence starts on the
line of its dash.
-/
import OntologyModel.Json.Number
import OntologyModel.Yaml.Scalar

namespace OntologyModel
namespace Yaml

open Json (Value)

/-- The text of a value that fits on a line and is no text. -/
def plainValue? : Value → Option (List Char)
  | .null => some "null".toList
  | .bool true => some "true".toList
  | .bool false => some "false".toList
  | .number n => some n.render
  | .array [] => some ['[', ']']
  | .object [] => some ['\x7b', '\x7d']
  | _ => none

mutual
/-- A value that starts in column `indent`, where the line has arrived already. -/
def inlineValue (indent : Nat) : Value → List Char
  | .text s => scalarLine indent s
  | .array (v :: rest) => '-' :: ' ' :: (inlineValue (indent + 2) v ++ items indent rest)
  | .object ((n, v) :: rest) => field indent n v ++ fields indent rest
  | v => (plainValue? v).getD [] ++ ['\n']

def field (indent : Nat) (name : String) : Value → List Char
  | .text s => name.toList ++ ':' :: ' ' :: scalarLine (indent + 2) s
  | .array (v :: rest) =>
    name.toList ++ ':' :: '\n' :: (blanks indent ++ '-' :: ' ' :: (inlineValue (indent + 2) v ++
      items indent rest))
  | .object ((n, v) :: rest) =>
    name.toList ++ ':' :: '\n' :: (blanks (indent + 2) ++ (field (indent + 2) n v ++
      fields (indent + 2) rest))
  | v => name.toList ++ ':' :: ' ' :: ((plainValue? v).getD [] ++ ['\n'])

def items (indent : Nat) : List Value → List Char
  | [] => []
  | v :: rest => blanks indent ++ '-' :: ' ' :: (inlineValue (indent + 2) v ++ items indent rest)

def fields (indent : Nat) : List (String × Value) → List Char
  | [] => []
  | (n, v) :: rest => blanks indent ++ (field indent n v ++ fields indent rest)
end

def document (v : Value) : String := String.ofList (inlineValue 0 v)

end Yaml
end OntologyModel

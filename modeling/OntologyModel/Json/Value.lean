/-
JSON values.

The members of an object stand in the order of the text, repeated names
included, because some readers of a document care about that order.  Where only
the last value of a repeated name counts and names are visited in ascending
order, `Value.entries` gives that view.
-/
import OntologyModel.Decimal.Shortest
import OntologyModel.Text.Order

namespace OntologyModel
namespace Json

/-- A number is an integer of at most 64 bits, or a real number of double
precision. -/
inductive Number where
  | whole (value : Int)
  | real (negative : Bool) (magnitude : Decimal.Binary)
deriving DecidableEq, Repr

inductive Value where
  | null
  | bool (value : Bool)
  | number (value : Number)
  | text (value : String)
  | array (items : List Value)
  | object (members : List (String × Value))
deriving Repr

namespace Value

def lastMember (name : String) : List (String × Value) → Option Value
  | [] => none
  | (n, v) :: rest =>
    match lastMember name rest with
    | some w => some w
    | none => if n = name then some v else none

/-- The members in ascending order of name, each name once and with its last
value. -/
def entries (members : List (String × Value)) : List (String × Value) :=
  (Text.ascendingTexts (members.map Prod.fst)).filterMap fun name =>
    (lastMember name members).map (name, ·)

def member? (name : String) : Value → Option Value
  | .object members => lastMember name members
  | _ => none

end Value
end Json
end OntologyModel

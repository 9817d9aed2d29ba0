/-
Paths of files.

A path is a text of names with slashes between them.  Empty names and single dots
stand for the place reached, except that a single dot may be the whole of a path.
-/
import OntologyModel.Text.Parts

namespace OntologyModel
namespace Path

def parts (path : String) : List String := (Text.parts '/' path.toList).map String.ofList

/-- Whether a part of a path stands for the place reached. -/
def isIdle (part : String) : Bool := part = "" || part = "."

def fileName? (path : String) : Option String :=
  match (parts path).reverse.dropWhile isIdle with
  | [] => none
  | name :: _ => if name = ".." then none else some name

/-- What follows the last dot of a name, unless the name starts with that dot. -/
def extensionOf? (name : String) : Option String :=
  match (Text.parts '.' name.toList).reverse with
  | ending :: before :: more =>
    if before.isEmpty && more.isEmpty then none else some (String.ofList ending)
  | _ => none

def extension? (path : String) : Option String := (fileName? path).bind extensionOf?

end Path
end OntologyModel

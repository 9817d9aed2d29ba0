/-
Cutting a text at a separator.

The parts stand in order and may be empty; there is one more of them than there
are separators.
-/
namespace OntologyModel
namespace Text

def parts (separator : Char) : List Char → List (List Char)
  | [] => [[]]
  | c :: rest =>
    if c = separator then [] :: parts separator rest
    else
      match parts separator rest with
      | [] => [[c]]
      | p :: ps => (c :: p) :: ps

end Text
end OntologyModel

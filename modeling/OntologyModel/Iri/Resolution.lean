/-
Resolving an IRI reference against a base.

What a reference lacks is taken from the base: its scheme, its authority, the part
of its path up to the last slash, its query.  Segments `.` and `..` are then
removed from the path.
-/
import OntologyModel.Iri.Syntax

namespace OntologyModel
namespace Iri

/-- A reversed path without its last segment and the slash before it. -/
def dropSegment (reversed : List Char) : List Char :=
  (reversed.dropWhile (· != '/')).drop 1

/-- Removes segments `.` and `..`; what has been kept stands reversed in `kept`.
Every step shortens the rest, so its length is fuel enough. -/
def removeDotsFrom : Nat → List Char → List Char → List Char
  | 0, kept, _ => kept.reverse
  | fuel + 1, kept, s =>
    match s with
    | [] => kept.reverse
    | '.' :: '.' :: '/' :: r => removeDotsFrom fuel kept r
    | '.' :: '/' :: r => removeDotsFrom fuel kept r
    | '/' :: '.' :: '/' :: r => removeDotsFrom fuel kept ('/' :: r)
    | ['/', '.'] => removeDotsFrom fuel kept ['/']
    | '/' :: '.' :: '.' :: '/' :: r => removeDotsFrom fuel (dropSegment kept) ('/' :: r)
    | ['/', '.', '.'] => removeDotsFrom fuel (dropSegment kept) ['/']
    | ['.'] => kept.reverse
    | ['.', '.'] => kept.reverse
    | c :: r =>
      removeDotsFrom fuel ((r.takeWhile (· != '/')).reverse ++ c :: kept)
        (r.dropWhile (· != '/'))

def removeDots (path : List Char) : List Char :=
  removeDotsFrom (path.length + 1) [] path

/-- The path of a reference in the place of the last segment of the base. -/
def mergePath (base : Iri) (path : List Char) : List Char :=
  if base.authority.isSome && base.path.isEmpty then '/' :: path
  else (base.path.reverse.dropWhile (· != '/')).reverse ++ path

def resolve (base reference : Iri) : Iri :=
  if reference.scheme.isSome then { reference with path := removeDots reference.path }
  else if reference.authority.isSome then
    { reference with scheme := base.scheme, path := removeDots reference.path }
  else if reference.path.isEmpty then
    { base with
      query := if reference.query.isSome then reference.query else base.query
      fragment := reference.fragment }
  else
    let path :=
      if reference.path.head? = some '/' then reference.path else mergePath base reference.path
    ⟨base.scheme, base.authority, removeDots path, reference.query, reference.fragment⟩

/-- The IRI that a text names, seen from a base if there is one; none if the text
is not valid. -/
def ofReference? (base : Option (List Char)) (s : List Char) : Option (List Char) :=
  match base with
  | none => if isAbsolute s then some s else none
  | some b =>
    let r := split s
    if r.isValid then some (resolve (split b) r).join else none

end Iri
end OntologyModel

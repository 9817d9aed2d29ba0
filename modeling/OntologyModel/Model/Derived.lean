/-
Links from classes to the classes derived from them.

A class is derived from each of its parents, so the links are the converse of the
parents.  Classes are found by id through their places in the list, and where several
classes carry one id, the last of them stands for it.  Each listed parent gives a link,
the links are entered at the places of the parents, and what a class collected is put
in order at the end.
-/
import OntologyModel.Model.Record
import OntologyModel.Text.Order

namespace OntologyModel
namespace Class

/-- The places of ids in a list.  A later place of an id replaces an earlier one. -/
def places (ids : List String) : String → Option Nat :=
  ids.zipIdx.foldl (fun place entry id => if id = entry.1 then some entry.2 else place id)
    fun _ => none

/-- The place of a class, and the id of a class that is derived from it. -/
structure Link where
  place : Nat
  child : String
deriving DecidableEq, Repr

/-- One link for each parent that has a place. -/
def links (place : String → Option Nat) (classes : List Class) : List Link :=
  classes.flatMap fun child =>
    child.parentIds.filterMap fun parent => (place parent).map (⟨·, child.id⟩)

def enter (classes : List Class) (l : Link) : List Class :=
  classes.modify l.place fun c => { c with derivedIds := c.derivedIds ++ [l.child] }

/-- Links every class to the classes derived from it, by ascending id; links that were
there before are dropped. -/
def linkDerived (classes : List Class) : List Class :=
  let cleared := classes.map fun c => { c with derivedIds := [] }
  let entered := (links (places (classes.map Class.id)) classes).foldl enter cleared
  entered.map fun c => { c with derivedIds := Text.ascendingTexts c.derivedIds }

end Class
end OntologyModel

/-
The order of classes: every class after all of its parents.

Classes wait in a queue, by id at first.  The class in front is placed if each of
its parents is placed already or unknown, and goes to the back otherwise.  When
as many classes were put off in a row as there are in the queue, none of them can
ever be placed, and a cycle among their parents is reported.

Both loops run on fuel.  A queue of `n` classes needs at most `n` steps for each
class that it places, and a walk along parents visits no id twice.
-/
import OntologyModel.Model.Error
import OntologyModel.Model.Record
import OntologyModel.Text.Order

namespace OntologyModel
namespace Precedence

def idBefore (a b : Class) : Bool := Text.before a.id b.id

structure Queue where
  waiting : List Class
  /-- The classes placed so far, the last one first. -/
  placed : List Class
  /-- How many classes were put off since the last one was placed. -/
  stalled : Nat
deriving DecidableEq, Repr

inductive Outcome where
  | placed (classes : List Class)
  | stuck (classes : List Class)
deriving DecidableEq, Repr

/-- Whether a parent does not hold a class back. -/
def settled (known : List String) (placed : List Class) (parent : String) : Bool :=
  (placed.any fun d => d.id = parent) || !known.contains parent

def ready (known : List String) (placed : List Class) (c : Class) : Bool :=
  c.parentIds.all (settled known placed)

/-- Works on a queue for at most `fuel` steps; none if they do not suffice. -/
def work (known : List String) : Nat → Queue → Option Outcome
  | _, ⟨[], placed, _⟩ => some (.placed placed.reverse)
  | 0, ⟨_ :: _, _, _⟩ => none
  | fuel + 1, ⟨c :: rest, placed, stalled⟩ =>
    if ready known placed c then work known fuel ⟨rest, c :: placed, 0⟩
    else
      let waiting := rest ++ [c]
      if waiting.length ≤ stalled + 1 then some (.stuck waiting)
      else work known fuel ⟨waiting, placed, stalled + 1⟩

def enoughSteps (n : Nat) : Nat := n * (n + 1) / 2

def least? (l : List String) : Option String := (Text.ascendingTexts l).head?

/-- The least parent of the class with this id that is itself stuck.  The last
class of an id stands for it. -/
def stuckParent? (stuck : List Class) (id : String) : Option String :=
  match stuck.reverse.find? fun c => c.id = id with
  | none => none
  | some c => least? (c.parentIds.filter fun p => stuck.any fun d => d.id = p)

/-- Follows stuck parents until an id comes up again, and gives the way from its
first visit to its second.  The ids visited stand in `path`, the last one first.
A walk that comes to an end gives all of its way. -/
def walk (stuck : List Class) : Nat → List String → String → Option (List String)
  | 0, _, _ => none
  | fuel + 1, path, id =>
    if path.contains id then
      some ((path.reverse.dropWhile fun p => p != id) ++ [id])
    else
      match stuckParent? stuck id with
      | some next => walk stuck fuel (id :: path) next
      | none => some (id :: path).reverse

/-- A cycle among the parents of stuck classes, from the least id on. -/
def findCycle (stuck : List Class) : List String :=
  match least? (stuck.map Class.id) with
  | none => []
  | some id => (walk stuck (stuck.length + 1) [] id).getD []

def order (classes : List Class) : Except ModelError (List Class) :=
  let sorted := Text.sortStable idBefore classes
  match work (sorted.map Class.id) (enoughSteps sorted.length) ⟨sorted, [], 0⟩ with
  | some (.placed ordered) => .ok ordered
  | some (.stuck stuck) => .error (.cyclicClassHierarchy (findCycle stuck))
  | none => .error (.cyclicClassHierarchy [])

end Precedence
end OntologyModel

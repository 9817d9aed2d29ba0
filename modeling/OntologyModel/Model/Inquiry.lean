/-
Computations that put questions to a graph.

An inquiry is a tree: it ends in a value or an error, or asks a question and goes
on with each possible answer, and it notes what it found on the way.  Nothing is
asked before a source is chosen, so that the same inquiry can be run over several
sources, and the questions it asks of one can be listed.  A run and a list of
questions follow the same path, the one that the answers of the source take.
-/
import OntologyModel.Model.Error
import OntologyModel.Model.Record

namespace OntologyModel

/-- What the construction of a model notes on the way. -/
inductive Finding where
  /-- A class expression without an IRI was passed over. -/
  | anonymousClass (node : Node)
  | structuralClass (cls : String)
  | enumerationClass (cls : String) (values : Nat)
  /-- A superclass that is no structural class was passed over. -/
  | ignoredSuperclass (cls parent : String)
  | resolvedProperty (cls property : String) (range : Range)
  | modelConstructed (enums classes compactedIds : Nat)
deriving DecidableEq, Repr

inductive Inquiry (α : Type) where
  | answer (a : α)
  | failure (e : ModelError)
  | ask (q : Question) (next : List Node → Inquiry α)
  | note (f : Finding) (next : Inquiry α)

namespace Inquiry

variable {α β γ : Type}

def bind : Inquiry α → (α → Inquiry β) → Inquiry β
  | .answer a, k => k a
  | .failure e, _ => .failure e
  | .ask q next, k => .ask q fun nodes => (next nodes).bind k
  | .note f next, k => .note f (next.bind k)

instance : Monad Inquiry where
  pure := .answer
  bind := bind

theorem bind_answer (x : Inquiry α) : x.bind .answer = x := by
  induction x with
  | answer a => rfl
  | failure e => rfl
  | ask q next ih => exact congrArg (Inquiry.ask q) (funext ih)
  | note f next ih => exact congrArg (Inquiry.note f) ih

theorem bind_assoc (x : Inquiry α) (f : α → Inquiry β) (g : β → Inquiry γ) :
    (x.bind f).bind g = x.bind fun a => (f a).bind g := by
  induction x with
  | answer a => rfl
  | failure e => rfl
  | ask q next ih => exact congrArg (Inquiry.ask q) (funext ih)
  | note f next ih => exact congrArg (Inquiry.note f) ih

instance : LawfulMonad Inquiry := LawfulMonad.mk' Inquiry
  (fun x => bind_answer x)
  (fun _ _ => rfl)
  (fun x f g => bind_assoc x f g)

def run (g : Source) : Inquiry α → Except ModelError α
  | .answer a => .ok a
  | .failure e => .error e
  | .ask q next =>
    match g.answer q with
    | .ok nodes => (next nodes).run g
    | .error e => .error (.graph e)
  | .note _ next => next.run g

def findings (g : Source) : Inquiry α → List Finding
  | .answer _ => []
  | .failure _ => []
  | .ask q next =>
    match g.answer q with
    | .ok nodes => (next nodes).findings g
    | .error _ => []
  | .note f next => f :: next.findings g

/-- The questions asked on the way, the first one first.  A question that the
source does not answer is the last. -/
def questions (g : Source) : Inquiry α → List Question
  | .answer _ => []
  | .failure _ => []
  | .ask q next =>
    q :: match g.answer q with
      | .ok nodes => (next nodes).questions g
      | .error _ => []
  | .note _ next => next.questions g

theorem run_bind (g : Source) (x : Inquiry α) (k : α → Inquiry β) :
    (x >>= k).run g = x.run g >>= fun a => (k a).run g := by
  induction x with
  | answer a => rfl
  | failure e => rfl
  | ask q next ih =>
    change run g (.ask q fun nodes => (next nodes).bind k) = run g (.ask q next) >>= _
    simp only [run]
    cases g.answer q with
    | ok nodes => exact ih nodes
    | error e => rfl
  | note f next ih => exact ih

def subjects (predicate : String) (object : Node) : Inquiry (List Node) :=
  .ask (.subjects predicate object) .answer

def objects (subject : Node) (predicate : String) : Inquiry (List Node) :=
  .ask (.objects subject predicate) .answer

def asserts (subject : Node) (predicate : String) (object : Node) : Inquiry Bool := do
  return (← objects subject predicate).contains object

/-- The least object of a subject and a predicate. -/
def value (subject : Node) (predicate : String) : Inquiry (Option Node) := do
  return (← objects subject predicate).head?

def textOrEmpty (subject : Node) (predicate : String) : Inquiry String := do
  return ((← value subject predicate).map Node.text).getD ""

def found (f : Finding) : Inquiry Unit := .note f (.answer ())

end Inquiry
end OntologyModel

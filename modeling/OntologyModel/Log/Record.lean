/-
What a run tells of itself.

An event has a level, a target that says which part of the program it comes from,
a message and fields.  A span is a stretch of a run with events inside it.
-/
namespace OntologyModel
namespace Log

/-- The importance of an event, the greatest first. -/
inductive Level where
  | error
  | warn
  | info
  | debug
  | trace
deriving DecidableEq, Repr

namespace Level

def rank : Level → Nat
  | .error => 1
  | .warn => 2
  | .info => 3
  | .debug => 4
  | .trace => 5

def name : Level → String
  | .error => "ERROR"
  | .warn => "WARN"
  | .info => "INFO"
  | .debug => "DEBUG"
  | .trace => "TRACE"

end Level

inductive FieldValue where
  | text (s : String)
  | count (n : Nat)
deriving DecidableEq, Repr

structure Event where
  level : Level
  target : String
  message : String
  fields : List (String × FieldValue)
deriving DecidableEq, Repr

structure Span where
  name : String
  level : Level
  target : String
deriving DecidableEq, Repr

inductive Record where
  | event (e : Event) (inside : Option Span)
  | opened (s : Span)
  | closed (s : Span)
deriving DecidableEq, Repr

end Log
end OntologyModel

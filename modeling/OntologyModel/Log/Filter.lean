/-
Which events are shown.

A filter is a list of directives, each a level, a target, or both.  An event is
judged by the directive with the longest target that its own target starts with;
one without a target is the last resort, and of two for one target the later
counts.  An event that no directive concerns is not shown.
-/
import OntologyModel.Context.Namespaces
import OntologyModel.Log.Record
import OntologyModel.Text.Parts
import OntologyModel.Text.Ranges

namespace OntologyModel
namespace Log

/-- The least important level that is shown; none shows nothing. -/
abbrev Threshold := Option Level

def Threshold.shows (t : Threshold) (l : Level) : Bool :=
  match t with
  | some least => l.rank ≤ least.rank
  | none => false

def Threshold.ofWord? (s : String) : Option Threshold :=
  match Text.lower s with
  | "off" | "0" => some none
  | "error" | "1" => some (some .error)
  | "warn" | "2" => some (some .warn)
  | "info" | "3" => some (some .info)
  | "debug" | "4" => some (some .debug)
  | "trace" | "5" => some (some .trace)
  | _ => none

structure Directive where
  target : Option String
  threshold : Threshold
deriving DecidableEq, Repr

namespace Directive

def isTargetChar (c : Char) : Bool :=
  Text.isLatin c || c.isDigit || c = '_' || c = ':' || c = '-'

/-- Reads a directive.  A target without a level has everything shown. -/
def parse? (s : List Char) : Option Directive :=
  match Threshold.ofWord? (String.ofList s) with
  | some t => some ⟨none, t⟩
  | none =>
    let target := s.takeWhile isTargetChar
    if target.isEmpty then none
    else
      match s.dropWhile isTargetChar with
      | [] | ['='] => some ⟨some (String.ofList target), some .trace⟩
      | '=' :: word =>
        (Threshold.ofWord? (String.ofList word)).map fun t => ⟨some (String.ofList target), t⟩
      | _ => none

def concerns (d : Directive) (target : String) : Bool :=
  match d.target with
  | some start => (Namespaces.dropStart? start.toList target.toList).isSome
  | none => true

def weight (d : Directive) : Nat :=
  match d.target with
  | some start => start.length + 1
  | none => 0

end Directive

abbrev Filter := List Directive

namespace Filter

/-- Reads directives with commas between them, of which any may be missing. -/
def parse? (s : String) : Option Filter :=
  ((Text.parts ',' s.toList).filter fun p => !p.isEmpty).mapM Directive.parse?

def judge? (f : Filter) (target : String) : Option Directive :=
  f.foldl (fun best d =>
    if d.concerns target then
      match best with
      | some b => if d.weight < b.weight then some b else some d
      | none => some d
    else best) none

def shows (f : Filter) (level : Level) (target : String) : Bool :=
  match f.judge? target with
  | some d => d.threshold.shows level
  | none => false

end Filter
end Log
end OntologyModel

/-
Reading N-Triples and N-Quads.

Each statement is written out in full: IRIs without abbreviation, strings on one
line in double quotation marks, and a dot at the end.  N-Quads may name the graph
of a statement in front of the dot.
-/
import OntologyModel.Rdf.Turtle

namespace OntologyModel
namespace Rdf
namespace Lines

open Reader

def resource : Token → Reader Resource
  | .iri s => do return .iri (← resolve s)
  | .blank label => labelledBlank label
  | _ => fail

def iri : Token → Reader String
  | .iri s => resolve s
  | _ => fail

def literal (text : String) : Reader Term := do
  match ← peek with
  | some (.language tag) =>
    let _ ← next
    if LanguageTag.isWellFormed tag then return .literal text (.language tag) else fail
  | some .carets =>
    let _ ← next
    return .literal text (.datatype (← iri (← next)))
  | _ => return .literal text .plain

def object : Token → Reader Term
  | .text s true => literal s
  | t => do return .resource (← resource t)

def graphName : Reader (Option Resource) := do
  if (← peek) = some (.mark '.') then return none
  else return some (← resource (← next))

def statement (graphs : Bool) (t : Token) : Reader Unit := do
  let subject ← resource t
  let predicate ← iri (← next)
  let object ← object (← next)
  let graph ← if graphs then graphName else pure none
  expect (.mark '.')
  modify fun r => { r with quads := ⟨subject, predicate, object, graph⟩ :: r.quads }

def statements (graphs : Bool) : Nat → Reader Unit
  | 0 => do
    if (← peek).isSome then fail
  | fuel + 1 => do
    if (← peek).isSome then
      statement graphs (← next)
      statements graphs fuel

/-- Reads a document, with names of graphs if `graphs` is set. -/
def parse? (graphs : Bool) (text : String) : Option Dataset := do
  let tokens ← Token.tokens? text
  let start := Reading.mk tokens none [] [] 0 none []
  let ((), r) ← (statements graphs tokens.length).run start
  return r.quads.reverse

end Lines
end Rdf
end OntologyModel

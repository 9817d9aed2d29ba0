/-
Reading Turtle and TriG.

A document is a list of directives and statements.  Square brackets make a blank
node of the properties in them and round ones a list of the objects in them, so
objects may be nested; fuel bounds the nesting and the number of objects by the
number of tokens.  TriG adds blocks of statements for named graphs.
-/
import OntologyModel.Rdf.Reading

namespace OntologyModel
namespace Rdf
namespace Turtle

open Reader

def iriOf : Token → Reader String
  | .iri s => resolve s
  | .name label part => expand label part
  | _ => fail

def predicate : Reader String := do
  match ← next with
  | .word "a" => return Vocabulary.rdfType
  | t => iriOf t

def literal (text : String) : Reader Term := do
  match ← peek with
  | some (.language tag) =>
    let _ ← next
    if LanguageTag.isWellFormed tag then return .literal text (.language tag) else fail
  | some .carets =>
    let _ ← next
    return .literal text (.datatype (← iriOf (← next)))
  | _ => return .literal text .plain

def numberType : NumberKind → String
  | .integer => Vocabulary.xsdNamespace ++ "integer"
  | .decimal => Vocabulary.xsdNamespace ++ "decimal"
  | .double => Vocabulary.xsdNamespace ++ "double"

mutual
def object : Nat → Token → Reader Term
  | 0, _ => fail
  | fuel + 1, t =>
    match t with
    | .blank label => do return .resource (← labelledBlank label)
    | .mark '[' => do return .resource (← properties fuel)
    | .mark '(' => do return .resource (← collection fuel)
    | .text s _ => literal s
    | .number kind s => return .literal s (.datatype (numberType kind))
    | .word "true" =>
      return .literal "true" (.datatype (Vocabulary.xsdNamespace ++ "boolean"))
    | .word "false" =>
      return .literal "false" (.datatype (Vocabulary.xsdNamespace ++ "boolean"))
    | t => do return .resource (.iri (← iriOf t))

/-- The blank node of the properties up to a closing square bracket. -/
def properties : Nat → Reader Resource
  | 0 => fail
  | fuel + 1 => do
    let node ← freshBlank
    if ← accept (.mark ']') then return node
    predicateObjects fuel node
    expect (.mark ']')
    return node

/-- The list of the objects up to a closing round bracket. -/
def collection : Nat → Reader Resource
  | 0 => fail
  | fuel + 1 => do
    if ← accept (.mark ')') then return .iri Vocabulary.rdfNil
    let node ← freshBlank
    emit node Vocabulary.rdfFirst (← object fuel (← next))
    emit node Vocabulary.rdfRest (.resource (← collection fuel))
    return node

def objects : Nat → Resource → String → Reader Unit
  | 0, _, _ => fail
  | fuel + 1, subject, predicate => do
    emit subject predicate (← object fuel (← next))
    if ← accept (.mark ',') then objects fuel subject predicate

/-- Predicates and their objects, with semicolons between them and perhaps at the
end. -/
def predicateObjects : Nat → Resource → Reader Unit
  | 0, _ => fail
  | fuel + 1, subject => do
    objects fuel subject (← predicate)
    if ← accept (.mark ';') then morePredicates fuel subject

def morePredicates : Nat → Resource → Reader Unit
  | 0, _ => fail
  | fuel + 1, subject => do
    match ← peek with
    | some (.mark ';') =>
      let _ ← next
      morePredicates fuel subject
    | some (.mark '.') | some (.mark ']') | some (.mark '\x7d') | none => return
    | _ => predicateObjects fuel subject
end

/-- Properties of a subject that has properties in brackets already: they may be
missing. -/
def optionalPredicates (fuel : Nat) (subject : Resource) : Reader Unit := do
  match ← peek with
  | some (.mark '.') | some (.mark '\x7d') => return
  | _ => predicateObjects fuel subject

def triples (fuel : Nat) (t : Token) : Reader Unit := do
  match t with
  | .blank label => predicateObjects fuel (← labelledBlank label)
  | .mark '(' => predicateObjects fuel (← collection fuel)
  | .mark '[' =>
    if (← peek) = some (.mark ']') then
      predicateObjects fuel (← properties fuel)
    else optionalPredicates fuel (← properties fuel)
  | t => predicateObjects fuel (.iri (← iriOf t))

def block : Nat → Reader Unit
  | 0 => fail
  | fuel + 1 => do
    if ← accept (.mark '\x7d') then return
    triples fuel (← next)
    if ← accept (.mark '.') then block fuel else expect (.mark '\x7d')

def graphBlock (fuel : Nat) (graph : Option Resource) : Reader Unit := do
  modify fun r => { r with graph }
  block fuel
  modify fun r => { r with graph := none }

def graphName (t : Token) : Reader Resource := do
  match t with
  | .blank label => labelledBlank label
  | .mark '[' =>
    expect (.mark ']')
    freshBlank
  | t => return .iri (← iriOf t)

def declareBase : Reader Unit := do
  match ← next with
  | .iri s =>
    let iri ← resolve s
    modify fun r => { r with base := some iri.toList }
  | _ => fail

def declarePrefix : Reader Unit := do
  match ← next with
  | .name label "" =>
    match ← next with
    | .iri s =>
      let iri ← resolve s
      modify fun r => { r with spaces := (label, iri) :: r.spaces }
    | _ => fail
  | _ => fail

/-- Whether a token names a graph or subject, so that a block may follow it. -/
def isLabel : Token → Bool
  | .iri _ | .name _ _ | .blank _ => true
  | _ => false

/-- A statement of TriG that starts with a token: a block, or triples. -/
def blockOrTriples (fuel : Nat) (t : Token) : Reader Unit := do
  let statement := do
    triples fuel t
    expect (.mark '.')
  match t with
  | .mark '\x7b' => graphBlock fuel none
  | .word w =>
    if Text.lower w = "graph" then do
      let name ← graphName (← next)
      expect (.mark '\x7b')
      graphBlock fuel (some name)
    else statement
  | _ =>
    let rest := (← get).tokens
    if isLabel t && rest.head? = some (.mark '\x7b') then do
      let name ← graphName t
      expect (.mark '\x7b')
      graphBlock fuel (some name)
    else if t = .mark '[' && rest.take 2 = [.mark ']', .mark '\x7b'] then do
      let name ← graphName t
      expect (.mark '\x7b')
      graphBlock fuel (some name)
    else statement

def statement (graphs : Bool) (fuel : Nat) (t : Token) : Reader Unit := do
  match t with
  | .language "prefix" =>
    declarePrefix
    expect (.mark '.')
  | .language "base" =>
    declareBase
    expect (.mark '.')
  | t =>
    let keyword := match t with
      | .word w => Text.lower w
      | _ => ""
    if keyword = "prefix" then declarePrefix
    else if keyword = "base" then declareBase
    else if graphs then blockOrTriples fuel t
    else do
      triples fuel t
      expect (.mark '.')

def statements (graphs : Bool) (inner : Nat) : Nat → Reader Unit
  | 0 => do
    if (← peek).isSome then fail
  | fuel + 1 => do
    if (← peek).isSome then
      statement graphs inner (← next)
      statements graphs inner fuel

/-- Reads a document, with blocks for named graphs if `graphs` is set. -/
def parse? (graphs : Bool) (text : String) : Option Dataset := do
  let tokens ← Token.tokens? text
  let inner := 4 * tokens.length + 4
  let start := Reading.mk tokens none [] [] 0 none []
  let ((), r) ← (statements graphs inner tokens.length).run start
  return r.quads.reverse

end Turtle
end Rdf
end OntologyModel

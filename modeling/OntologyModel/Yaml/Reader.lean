/-
Reading YAML documents.

In block context the column of a key or dash says how deep it stands; inside
brackets columns mean nothing.  A key is written on one line with its colon, and
a block collection starts on a line of its own or behind a dash.  Fuel bounds the
nesting and the number of entries by the length of the text.
-/
import OntologyModel.Text.Ranges
import OntologyModel.Yaml.Block
import OntologyModel.Yaml.Node
import OntologyModel.Yaml.Plain
import OntologyModel.Yaml.Quoted

namespace OntologyModel
namespace Yaml

structure Reading where
  rest : List Place
  anchors : List (String × Node)

/-- A step of a reader; none if the text is malformed. -/
abbrev Reader := StateT Reading Option

namespace Reader

def fail {α : Type} : Reader α := fun _ => none

def left : Reader (List Place) := fun r => some (r.rest, r)

def goTo (t : List Place) : Reader Unit := fun r => some ((), { r with rest := t })

def taken (result : Option (String × List Place)) : Reader String := fun r =>
  result.map fun (s, t) => (s, { r with rest := t })

/-- Leaves out spacing, and says whether a new line was reached. -/
def advance (flow tabs : Bool) : Reader Bool := fun r =>
  let t := dropSpacing flow tabs false r.rest
  let crossed := match r.rest, t with
    | p :: _, q :: _ => decide (p.line < q.line)
    | _, _ => true
  some (crossed, { r with rest := t })

def flowPlace : Reader Place := do
  let _ ← advance true true
  let t ← left
  match t with
  | p :: _ => if ended t then fail else return p
  | [] => fail

/-- Takes the next place if a mark stands there, and says whether it did. -/
def accept (mark : Char) : Reader Bool := do
  match ← left with
  | p :: rest =>
    if p.char = mark then
      goTo rest
      return true
    else return false
  | [] => return false

def isNameChar (c : Char) : Bool :=
  Text.isLatin c || c.isDigit || c = '_' || c = '-'

def name : Reader String := do
  let t ← left
  let s := t.takeWhile fun p => isNameChar p.char
  let after := t.dropWhile fun p => isNameChar p.char
  let closed := blankNext after ||
    (after.head?.map fun p => "?:,]\x7d%@`".toList.contains p.char).getD true
  if s.isEmpty || !closed then fail
  else
    goTo after
    return String.ofList (s.map Place.char)

def tagOf? (s : List Char) : Option String :=
  match s with
  | '!' :: rest => some ("tag:yaml.org,2002:" ++ String.ofList rest)
  | '<' :: rest =>
    if rest.getLast? = some '>' then some (String.ofList rest.dropLast) else none
  | _ => if s.contains '!' then none else some (String.ofList ('!' :: s))

/-- The rest of a tag.  In angle brackets it may hold marks of collections. -/
def tag : Reader String := do
  let t ← left
  let whole := (t.head?.map fun p => decide (p.char = '<')).getD false
  let isTagChar := fun p : Place => !isSpacing p.char && (whole || !Plain.isFlowMark p.char)
  goTo (t.dropWhile isTagChar)
  match tagOf? ((t.takeWhile isTagChar).map Place.char) with
  | some s => return s
  | none => fail

structure Properties where
  anchor : Option String := none
  tag : Option String := none

namespace Properties

def isNone (p : Properties) : Bool := p.anchor.isNone && p.tag.isNone

def apply (p : Properties) (n : Node) : Reader Node := fun r =>
  let n := n.withTag p.tag
  match p.anchor with
  | some a => some (n, { r with anchors := (a, n) :: r.anchors })
  | none => some (n, r)

end Properties

/-- Reads properties on a line, each kind at most once. -/
def properties : Nat → Properties → Reader Properties
  | 0, p => return p
  | fuel + 1, p => do
    match (← left).dropWhile fun q => isBlank q.char with
    | q :: rest =>
      if q.char = '&' && p.anchor.isNone then
        goTo rest
        properties fuel { p with anchor := some (← name) }
      else if q.char = '!' && p.tag.isNone then
        goTo rest
        properties fuel { p with tag := some (← tag) }
      else return p
    | [] => return p

/-- Takes the colon of a key that started on a certain line. -/
def colon (flow : Bool) (line : Nat) : Reader Bool := do
  match (← left).dropWhile fun p => isBlank p.char with
  | p :: rest =>
    if p.char = ':' && p.line = line && (flow || blankNext rest) then
      goTo rest
      return true
    else return false
  | [] => return false

def isIndicator (mark : Char) : List Place → Bool
  | p :: rest => p.char = mark && blankNext rest
  | [] => false

mutual
/-- A node without block collections, at whose first character the text stands. -/
def leaf : Nat → Bool → Nat → Reader Node
  | 0, _, _ => fail
  | fuel + 1, flow, bound => do
    let t ← left
    match t with
    | [] => return .empty
    | p :: rest =>
      if p.char = '[' then
        goTo rest
        return .sequence (← flowItems fuel bound)
      else if p.char = '\x7b' then
        goTo rest
        return .mapping (← flowEntries fuel bound)
      else if p.char = '*' then
        goTo rest
        match (← get).anchors.lookup (← name) with
        | some n => return n
        | none => fail
      else if p.char = '\'' || p.char = '"' then
        let read := Quoted.read? p.char (rest.length + 1) rest
        return .scalar false none (← taken (read.map fun (s, t) => (String.ofList s, t)))
      else if !flow && (p.char = '|' || p.char = '>') then
        return .scalar false none (← taken (Block.read? (p.char = '|') bound rest))
      else if Plain.startsHere flow p.char rest then
        return .scalar true none (← taken (Plain.read? flow bound t))
      else fail

def flowNode : Nat → Nat → Reader Node
  | 0, _ => fail
  | fuel + 1, bound => do
    let p ← properties 2 {}
    let next ← flowPlace
    if next.char = ',' || next.char = ']' || next.char = '\x7d' || next.char = ':' then
      if p.isNone then fail else p.apply .empty
    else p.apply (← leaf fuel true bound)

def flowValue : Nat → Nat → Reader Node
  | 0, _ => fail
  | fuel + 1, bound => do
    let next ← flowPlace
    if next.char = ',' || next.char = ']' || next.char = '\x7d' then return .empty
    else flowNode fuel bound

def flowPair : Nat → Nat → Reader (Node × Node)
  | 0, _ => fail
  | fuel + 1, bound => do
    let next ← flowPlace
    let key ← if next.char = ':' then pure .empty else flowValue fuel bound
    let _ ← flowPlace
    if ← accept ':' then return (key, ← flowValue fuel bound)
    else return (key, .empty)

/-- The items up to a closing bracket.  A key with its value is an item of its
own. -/
def flowItems : Nat → Nat → Reader (List Node)
  | 0, _ => fail
  | fuel + 1, bound => do
    let first ← flowPlace
    if ← accept ']' then return []
    let item ←
      if ← accept '?' then do
        pure (Node.mapping [← flowPair fuel bound])
      else do
        let n ← flowNode fuel bound
        if ← colon true first.line then
          pure (Node.mapping [(n, ← flowValue fuel bound)])
        else pure n
    let _ ← flowPlace
    if ← accept ',' then return item :: (← flowItems fuel bound)
    else if ← accept ']' then return [item]
    else fail

def flowEntries : Nat → Nat → Reader (List (Node × Node))
  | 0, _ => fail
  | fuel + 1, bound => do
    let first ← flowPlace
    if ← accept '\x7d' then return []
    let entry ←
      if ← accept '?' then flowPair fuel bound
      else do
        let n ← flowNode fuel bound
        if ← colon true first.line then pure (n, ← flowValue fuel bound)
        else pure (n, Node.empty)
    let _ ← flowPlace
    if ← accept ',' then return entry :: (← flowEntries fuel bound)
    else if ← accept '\x7d' then return [entry]
    else fail
end

mutual
/-- A node whose lines start in column `bound` or later.  It may be a block
collection on the line reached if `fresh` is set, and in any case on a later
one. -/
def block : Nat → Nat → Bool → Reader Node
  | 0, _, _ => fail
  | fuel + 1, bound, fresh => do
    let crossed ← advance false !fresh
    let fresh := fresh || crossed
    let t ← left
    match t with
    | [] => return .empty
    | start :: _ =>
      if ended t || start.column < bound then return .empty
      else if fresh && isIndicator '-' t then return .sequence (← items fuel start.column)
      else if fresh && isIndicator '?' t then return .mapping (← entries fuel start.column)
      else
        let p ← properties 2 {}
        let below ← if p.isNone then pure false else advance false true
        if below then p.apply (← block fuel bound true)
        else
          let n ← p.apply (← leaf fuel false bound)
          let isKey ← if fresh then colon false start.line else pure false
          if isKey then
            let v ← value fuel start.column false
            return .mapping ((n, v) :: (← entries fuel start.column))
          else return n

/-- The value of a key in a column.  A sequence may stand in the column of the
key. -/
def value : Nat → Nat → Bool → Reader Node
  | 0, _, _ => fail
  | fuel + 1, column, fresh => do
    let crossed ← advance false !fresh
    let t ← left
    let aligned := (t.head?.map fun p => decide (p.column = column)).getD false
    if crossed && aligned && !ended t && isIndicator '-' t then
      return .sequence (← items fuel column)
    else block fuel (column + 1) (fresh || crossed)

def items : Nat → Nat → Reader (List Node)
  | 0, _ => fail
  | fuel + 1, column => do
    let _ ← advance false true
    let t ← left
    match t with
    | [] => return []
    | p :: rest =>
      if ended t || p.column < column then return []
      else if column < p.column then fail
      else if isIndicator '-' t then
        goTo rest
        let item ← block fuel (column + 1) true
        return item :: (← items fuel column)
      else return []

def entries : Nat → Nat → Reader (List (Node × Node))
  | 0, _ => fail
  | fuel + 1, column => do
    let _ ← advance false true
    let t ← left
    match t with
    | [] => return []
    | p :: rest =>
      if ended t || p.column < column then return []
      else if column < p.column then fail
      else if isIndicator '?' t then
        goTo rest
        let key ← value fuel column true
        let _ ← advance false true
        let t ← left
        let aligned := (t.head?.map fun q => decide (q.column = column)).getD false
        if aligned && isIndicator ':' t then
          goTo (t.drop 1)
          let v ← value fuel column true
          return (key, v) :: (← entries fuel column)
        else return (key, .empty) :: (← entries fuel column)
      else
        let props ← properties 2 {}
        let key ← props.apply (← leaf fuel false (column + 1))
        if ← colon false p.line then
          let v ← value fuel column false
          return (key, v) :: (← entries fuel column)
        else fail
end

/-- Reads what may follow a document: marks of its end, and no other document. -/
def ending : Nat → Reader Unit
  | 0 => fail
  | fuel + 1 => do
    let _ ← advance false true
    let t ← left
    if t.isEmpty then return
    else if isMarker '.' t then
      goTo (t.drop 3)
      ending fuel
    else fail

/-- Leaves out directives, which take a line each and ask for a mark at the start
of the document. -/
def directives : Nat → Reader Unit
  | 0 => fail
  | fuel + 1 => do
    let _ ← advance false false
    let t ← left
    match t with
    | p :: _ =>
      if p.char = '%' && p.column = 0 then
        let line := String.ofList ((t.takeWhile fun q => !isBreak q.char).map Place.char)
        if line.startsWith "%YAML 1.1" || line.startsWith "%YAML 1.2" then
          goTo (t.dropWhile fun q => !isBreak q.char)
          directives fuel
        else fail
      else if isMarker '-' t then return
      else fail
    | [] => fail

def document (fuel : Nat) : Reader (Option Node) := do
  let _ ← advance false false
  let t ← left
  match t with
  | [] => return none
  | p :: _ =>
    if p.char = '%' && p.column = 0 then directives fuel
    let t ← left
    if isMarker '.' t then fail
    let marked := isMarker '-' t
    if marked then goTo (t.drop 3)
    let n ← block fuel 0 !marked
    ending fuel
    return some n

end Reader

/-- The document of a text: none if it is malformed, and nothing in it if there is
no document. -/
def document? (s : String) : Option (Option Node) :=
  match places? s with
  | none => none
  | some t => (Reader.document (4 * t.length + 8)).run' ⟨t, []⟩

end Yaml
end OntologyModel

/-
The characters of a YAML text with their places.

Lines and columns count from zero.  Every line break is read as a line feed,
apart from the line and paragraph separators, which stay what they are.  A byte
order mark may stand in front of the text; elsewhere it is not allowed, and
neither are controls.
-/
import OntologyModel.Yaml.Scalar

namespace OntologyModel
namespace Yaml

structure Place where
  char : Char
  line : Nat
  column : Nat
deriving DecidableEq, Repr

def isAllowed (c : Char) : Bool :=
  isPrintable c || c = '\t' || c = '\r' || c.toNat = 0x85

/-- Places the characters of a text, the first one at the given line and column. -/
def placed (line column : Nat) : List Char → List Place
  | [] => []
  | c :: rest =>
    if c = '\r' && rest.head? = some '\n' then placed line column rest
    else if isBreak c then
      ⟨if c.toNat < 0x2028 then '\n' else c, line, column⟩ :: placed (line + 1) 0 rest
    else ⟨c, line, column⟩ :: placed line (column + 1) rest

/-- The places of a text, if it holds only characters that are allowed. -/
def places? (s : String) : Option (List Place) :=
  let cs := match s.toList with
    | c :: rest => if c.toNat = 0xFEFF then rest else c :: rest
    | [] => []
  if cs.all isAllowed then some (placed 0 0 cs) else none

def isBlank (c : Char) : Bool := c = ' ' || c = '\t'

def blankNext : List Place → Bool
  | [] => true
  | p :: _ => isSpacing p.char

/-- Whether a line starts here with three marks that open or close a document. -/
def isMarker (mark : Char) : List Place → Bool
  | p :: q :: r :: rest =>
    p.column = 0 && p.char = mark && q.char = mark && r.char = mark && blankNext rest
  | _ => false

def ended (t : List Place) : Bool :=
  t.isEmpty || isMarker '-' t || isMarker '.' t

/-- Leaves out blanks, breaks and comments.  Outside of brackets, a tab is no
blank at the start of a line. -/
def dropSpacing (flow : Bool) (tabs comment : Bool) : List Place → List Place
  | [] => []
  | p :: rest =>
    if isBreak p.char then dropSpacing flow flow false rest
    else if comment then dropSpacing flow tabs true rest
    else if p.char = ' ' || (p.char = '\t' && tabs) then dropSpacing flow tabs false rest
    else if p.char = '#' then dropSpacing flow tabs true rest
    else p :: rest

structure Gap where
  /-- The blanks in front of the first break. -/
  blanks : List Char
  breaks : List Char
  rest : List Place

/-- Takes the gap at the start of a text; what was taken stands in reverse. -/
def takeGap (blanks breaks : List Char) : List Place → Gap
  | [] => ⟨blanks.reverse, breaks.reverse, []⟩
  | p :: rest =>
    if isBreak p.char then takeGap blanks (p.char :: breaks) rest
    else if isBlank p.char then
      takeGap (if breaks.isEmpty then p.char :: blanks else blanks) breaks rest
    else ⟨blanks.reverse, breaks.reverse, p :: rest⟩

/-- What a gap stands for: blanks for themselves, one line feed for a space, and
of several breaks the first for nothing. -/
def Gap.text (g : Gap) : List Char :=
  match g.breaks with
  | [] => g.blanks
  | ['\n'] => [' ']
  | '\n' :: more => more
  | breaks => breaks

end Yaml
end OntologyModel

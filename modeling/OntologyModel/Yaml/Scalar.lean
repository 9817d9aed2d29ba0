/-
Writing a text as a YAML scalar.

A text is written plainly if that reads back as the same text.  A text of several
lines becomes a literal block; what neither form can hold is put in single
quotation marks, and what needs escapes in double ones.  Lines are never folded.
-/
import OntologyModel.Yaml.Resolution

namespace OntologyModel
namespace Yaml

def isBreak (c : Char) : Bool :=
  c = '\n' || c = '\r' || c.toNat = 0x85 || c.toNat = 0x2028 || c.toNat = 0x2029

/-- Blanks, line breaks and the null character, which end an indicator. -/
def isSpacing (c : Char) : Bool :=
  c = ' ' || c = '\t' || isBreak c || c.toNat = 0

def isPrintable (c : Char) : Bool :=
  let n := c.toNat
  n = 0x0A || (0x20 ≤ n && n ≤ 0x7E) || (0xA0 ≤ n && n ≤ 0xD7FF) ||
    (0xE000 ≤ n && n ≤ 0xFFFD && n != 0xFEFF) || 0x10000 ≤ n

def endsHere : List Char → Bool
  | [] => true
  | c :: _ => isSpacing c

/-- Whether an indicator stands behind the first character, which is `last`. -/
def hasInnerIndicator (last : Char) : List Char → Bool
  | [] => false
  | c :: r => (c = ':' && endsHere r) || (c = '#' && isSpacing last) || hasInnerIndicator c r

def startIndicators : List Char := "#,[]\x7b\x7d&*!|>'\"%@`".toList

def hasIndicator (s : List Char) : Bool :=
  ['-', '-', '-'].isPrefixOf s || ['.', '.', '.'].isPrefixOf s ||
    match s with
    | [] => false
    | c :: r =>
      startIndicators.contains c || ((c = '?' || c = ':' || c = '-') && endsHere r) ||
        hasInnerIndicator c r

def hasPair (p q : Char → Bool) : List Char → Bool
  | a :: b :: r => (p a && q b) || hasPair p q (b :: r)
  | _ => false

def isSpace (c : Char) : Bool := c = ' '

def allowsSingle (s : List Char) : Bool :=
  s.all isPrintable && !hasPair isBreak isSpace s && !hasPair isSpace isBreak s

def allowsPlain (s : List Char) : Bool :=
  allowsSingle s && !s.any isBreak && !hasIndicator s &&
    !(s.head?.map isSpace).getD false && !(s.getLast?.map isSpace).getD false

def allowsBlock (s : List Char) : Bool :=
  s.all isPrintable && !hasPair isSpace isBreak s && !(s.getLast?.map isSpace).getD false

inductive Style where
  | plain
  | singleQuoted
  | doubleQuoted
  | literal
deriving DecidableEq, Repr

def styleOf (s : String) : Style :=
  let cs := s.toList
  if cs.contains '\n' then
    if allowsBlock cs then .literal else .doubleQuoted
  else if !isAmbiguous s && allowsPlain cs then .plain
  else if allowsSingle cs then .singleQuoted
  else .doubleQuoted

def hexDigit (n : Nat) : Char :=
  if n < 10 then Char.ofNat ('0'.toNat + n) else Char.ofNat ('A'.toNat + (n - 10))

def hexDigits : Nat → Nat → List Char
  | 0, _ => []
  | width + 1, n => hexDigits width (n / 16) ++ [hexDigit (n % 16)]

def escape (c : Char) : List Char :=
  let n := c.toNat
  if isPrintable c && !isBreak c && c != '"' && c != '\\' then [c]
  else
    '\\' ::
      if n = 0 then ['0']
      else if n = 7 then ['a']
      else if n = 8 then ['b']
      else if n = 9 then ['t']
      else if n = 10 then ['n']
      else if n = 11 then ['v']
      else if n = 12 then ['f']
      else if n = 13 then ['r']
      else if n = 0x1B then ['e']
      else if n = 0x22 then ['"']
      else if n = 0x5C then ['\\']
      else if n = 0x85 then ['N']
      else if n = 0x2028 then ['L']
      else if n = 0x2029 then ['P']
      else if n ≤ 0xFF then 'x' :: hexDigits 2 n
      else if n ≤ 0xFFFF then 'u' :: hexDigits 4 n
      else 'U' :: hexDigits 8 n

def blanks (n : Nat) : List Char := List.replicate n ' '

/-- The inside of single quotation marks and the closing one.  A mark is written
twice, and the text goes on at the indentation after line breaks. -/
def singleQuotedFrom (indent : Nat) (broken : Bool) : List Char → List Char
  | [] => (if broken then blanks indent else []) ++ ['\'']
  | c :: r =>
    if isSpace c then c :: singleQuotedFrom indent broken r
    else if isBreak c then c :: singleQuotedFrom indent true r
    else
      (if broken then blanks indent else []) ++
        ((if c = '\'' then ['\'', '\''] else [c]) ++ singleQuotedFrom indent false r)

def blockFrom (indent : Nat) (broken : Bool) : List Char → List Char
  | [] => []
  | c :: r =>
    if isBreak c then c :: blockFrom indent true r
    else (if broken then blanks indent else []) ++ c :: blockFrom indent false r

/-- The header of a literal block: an indentation mark if the text starts with
spacing, and how the end is to be read if it is not a single line break. -/
def blockHeader (s : List Char) : List Char :=
  let start := match s with
    | c :: _ => if isSpace c || isBreak c then ['2'] else []
    | [] => []
  let stop := match s.reverse with
    | [] => ['-']
    | c :: r =>
      if !isBreak c then ['-']
      else match r with
        | [] => ['+']
        | d :: _ => if isBreak d then ['+'] else []
  '|' :: (start ++ stop)

/-- A scalar and the line break after it.  Its further lines, if it has any, are
indented by `indent` columns. -/
def scalarLine (indent : Nat) (s : String) : List Char :=
  let cs := s.toList
  match styleOf s with
  | .plain => cs ++ ['\n']
  | .singleQuoted => '\'' :: (singleQuotedFrom indent false cs ++ ['\n'])
  | .doubleQuoted => '"' :: (cs.flatMap escape ++ ['"', '\n'])
  | .literal =>
    blockHeader cs ++ '\n' :: (blockFrom indent true cs ++
      if (cs.getLast?.map isBreak).getD false then [] else ['\n'])

end Yaml
end OntologyModel

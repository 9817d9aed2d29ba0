/-
The tokens of Turtle and its relatives.

Names follow the letter classes of the grammar; a dot belongs to a name only if
the name goes on after it.  Escapes in strings, IRIs and local names are resolved
here, so that a token holds the characters it stands for.
-/
import OntologyModel.Json.Reader
import OntologyModel.Text.Ranges

namespace OntologyModel
namespace Rdf

open Text

/-- The kinds of number that are written without quotation marks. -/
inductive NumberKind where
  | integer
  | decimal
  | double
deriving DecidableEq, Repr

inductive Token where
  /-- A reference in angle brackets, not resolved yet. -/
  | iri (text : List Char)
  /-- A name with a prefix, which may be empty. -/
  | name (label part : String)
  | blank (label : String)
  /-- A string; `simple` if it stands on a line between double quotation marks. -/
  | text (value : String) (simple : Bool)
  /-- An at sign and the word after it. -/
  | language (tag : String)
  | number (kind : NumberKind) (text : String)
  | word (text : String)
  | mark (c : Char)
  /-- The sign between a string and its datatype. -/
  | carets
deriving DecidableEq, Repr

/-- The letters that names may start with. -/
def baseRanges : List (Nat × Nat) :=
  [(65, 90), (97, 122), (0xC0, 0xD6), (0xD8, 0xF6), (0xF8, 0x2FF), (0x370, 0x37D),
    (0x37F, 0x1FFF), (0x200C, 0x200D), (0x2070, 0x218F), (0x2C00, 0x2FEF), (0x3001, 0xD7FF),
    (0xF900, 0xFDCF), (0xFDF0, 0xFFFD), (0x10000, 0xEFFFF)]

def isBaseChar (c : Char) : Bool := inRanges baseRanges c

def isStartChar (c : Char) : Bool := isBaseChar c || c = '_'

def isNameChar (c : Char) : Bool :=
  isStartChar c || c = '-' || c.isDigit || inRanges [(0xB7, 0xB7), (0x300, 0x36F),
    (0x203F, 0x2040)] c

namespace Token

def scalar? (n : Nat) : Option Char :=
  if n < 0xD800 || (0xE000 ≤ n && n < 0x110000) then some (Char.ofNat n) else none

def hexScalar? (width : Nat) (s : List Char) : Option (Char × List Char) :=
  let digits := s.take width
  if digits.length = width && digits.all isHexDigit then
    let n := digits.foldl (fun n c => 16 * n + (Json.Token.hexValue? c).getD 0) 0
    (scalar? n).map (·, s.drop width)
  else none

def stringEscape? (c : Char) : Option Char :=
  if c = 't' then some '\t'
  else if c = 'b' then some (Char.ofNat 8)
  else if c = 'n' then some '\n'
  else if c = 'r' then some '\r'
  else if c = 'f' then some (Char.ofNat 12)
  else if c = '"' || c = '\'' || c = '\\' then some c
  else none

def escaped? : List Char → Option (Char × List Char)
  | 'u' :: s => hexScalar? 4 s
  | 'U' :: s => hexScalar? 8 s
  | c :: s => (stringEscape? c).map (·, s)
  | [] => none

/-- Reads a reference after its opening bracket; `done` is reversed. -/
def iri? : Nat → List Char → List Char → Option (List Char × List Char)
  | 0, _, _ => none
  | _, _, [] => none
  | _, done, '>' :: s => some (done.reverse, s)
  | fuel + 1, done, '\\' :: 'u' :: s =>
    match hexScalar? 4 s with
    | some (c, s) => iri? fuel (c :: done) s
    | none => none
  | fuel + 1, done, '\\' :: 'U' :: s =>
    match hexScalar? 8 s with
    | some (c, s) => iri? fuel (c :: done) s
    | none => none
  | fuel + 1, done, c :: s => if c = '\\' then none else iri? fuel (c :: done) s

def shortString? (mark : Char) : Nat → List Char → List Char → Option (String × List Char)
  | 0, _, _ => none
  | _, _, [] => none
  | fuel + 1, done, c :: s =>
    if c = mark then some (String.ofList done.reverse, s)
    else if c = '\n' || c = '\r' then none
    else if c = '\\' then
      match escaped? s with
      | some (c, s) => shortString? mark fuel (c :: done) s
      | none => none
    else shortString? mark fuel (c :: done) s

def longString? (mark : Char) : Nat → List Char → List Char → Option (String × List Char)
  | 0, _, _ => none
  | _, _, [] => none
  | fuel + 1, done, c :: s =>
    if c = mark && [mark, mark].isPrefixOf s then some (String.ofList done.reverse, s.drop 2)
    else if c = '\\' then
      match escaped? s with
      | some (c, s) => longString? mark fuel (c :: done) s
      | none => none
    else longString? mark fuel (c :: done) s

def string? (mark : Char) (s : List Char) : Option (Token × List Char) :=
  let fuel := s.length + 1
  if [mark, mark].isPrefixOf s then
    (longString? mark fuel [] (s.drop 2)).map fun (t, r) => (.text t false, r)
  else
    (shortString? mark fuel [] s).map fun (t, r) => (.text t (mark = '"'), r)

/-- Reads characters of a class and dots among them; the dots at the end are left
alone.  `dots` counts the dots since the last other character. -/
def dotted (p : Char → Bool) : Nat → List Char → List Char → List Char × List Char
  | dots, done, [] => (done.reverse, List.replicate dots '.')
  | dots, done, c :: s =>
    if c = '.' then dotted p (dots + 1) done s
    else if p c then dotted p 0 (c :: (List.replicate dots '.' ++ done)) s
    else (done.reverse, List.replicate dots '.' ++ c :: s)

/-- The characters that a backslash may precede in a local name. -/
def isLocalEscape (c : Char) : Bool :=
  ['_', '~', '.', '-', '!', '$', '&', '\'', '(', ')', '*', '+', ',', ';', '=', '/', '?', '#', '@',
    '%'].contains c

/-- Reads a local name; the first character is from a smaller class than the
others. -/
def localPart : Nat → List Char → List Char → Option (List Char × List Char)
  | dots, done, [] => some (done.reverse, List.replicate dots '.')
  | dots, done, '%' :: a :: b :: s =>
    if isHexDigit a && isHexDigit b then
      localPart 0 (b :: a :: '%' :: (List.replicate dots '.' ++ done)) s
    else none
  | dots, done, '\\' :: c :: s =>
    if isLocalEscape c then localPart 0 (c :: (List.replicate dots '.' ++ done)) s else none
  | dots, done, c :: s =>
    if c = '.' && !(done.isEmpty && dots = 0) then localPart (dots + 1) done s
    else if c = ':' || (if done.isEmpty then isStartChar c || c.isDigit else isNameChar c) then
      localPart 0 (c :: (List.replicate dots '.' ++ done)) s
    else some (done.reverse, List.replicate dots '.' ++ c :: s)

def exponent? : List Char → Option (List Char × List Char)
  | e :: s =>
    if e = 'e' || e = 'E' then
      let (sign, s) := match s with
        | '-' :: r => (['-'], r)
        | '+' :: r => (['+'], r)
        | _ => ([], s)
      let ds := s.takeWhile Char.isDigit
      if ds.isEmpty then none else some (e :: (sign ++ ds), s.dropWhile Char.isDigit)
    else none
  | [] => none

def number? (s : List Char) : Option (Token × List Char) :=
  let (sign, s) := match s with
    | '-' :: r => (['-'], r)
    | '+' :: r => (['+'], r)
    | _ => ([], s)
  let whole := s.takeWhile Char.isDigit
  let rest := s.dropWhile Char.isDigit
  let made := fun kind body rest => some (Token.number kind (String.ofList (sign ++ body)), rest)
  let plain :=
    if whole.isEmpty then none
    else
      match exponent? rest with
      | some (e, r) => made .double (whole ++ e) r
      | none => made .integer whole rest
  match rest with
  | '.' :: after =>
    let fraction := after.takeWhile Char.isDigit
    let rest' := after.dropWhile Char.isDigit
    match exponent? rest' with
    | some (e, r) =>
      if whole.isEmpty && fraction.isEmpty then none
      else made .double (whole ++ '.' :: (fraction ++ e)) r
    | none => if fraction.isEmpty then plain else made .decimal (whole ++ '.' :: fraction) rest'
  | _ => plain

def wordOrName? (s : List Char) : Option (Token × List Char) :=
  let (label, rest) := dotted isNameChar 0 [] s
  match rest with
  | ':' :: r =>
    (localPart 0 [] r).map fun (part, r) =>
      (.name (String.ofList label) (String.ofList part), r)
  | _ => if label.isEmpty then none else some (.word (String.ofList label), rest)

def blank? (s : List Char) : Option (Token × List Char) :=
  match s with
  | c :: _ =>
    if isStartChar c || c.isDigit then
      let (label, rest) := dotted isNameChar 0 [] s
      some (.blank (String.ofList label), rest)
    else none
  | [] => none

def language? (s : List Char) : Option (Token × List Char) :=
  let isTagChar := fun c => isLatin c || c.isDigit || c = '-'
  let tag := s.takeWhile isTagChar
  if tag.isEmpty then none
  else some (.language (String.ofList tag), s.dropWhile isTagChar)

def isBlank (c : Char) : Bool := c = ' ' || c = '\t' || c = '\n' || c = '\r'

def isMark (c : Char) : Bool :=
  ['.', ',', ';', '[', ']', '(', ')', '\x7b', '\x7d'].contains c

def startsNumber : List Char → Bool
  | '.' :: c :: _ => c.isDigit
  | c :: _ => c.isDigit || c = '+' || c = '-'
  | [] => false

def first? (s : List Char) : Option (Token × List Char) :=
  match s with
  | [] => none
  | '<' :: r => (iri? (r.length + 1) [] r).map fun (t, r) => (.iri t, r)
  | '^' :: '^' :: r => some (.carets, r)
  | '@' :: r => language? r
  | '_' :: ':' :: r => blank? r
  | c :: r =>
    if c = '"' || c = '\'' then string? c r
    else if startsNumber s then number? s
    else if isMark c then some (.mark c, r)
    else if c = ':' || isBaseChar c then wordOrName? s
    else none

/-- Cuts a text into tokens; `done` is reversed.  Every step takes at least one
character, so the length of the text is fuel enough. -/
def scan : Nat → List Token → List Char → Option (List Token)
  | _, done, [] => some done.reverse
  | 0, _, _ :: _ => none
  | fuel + 1, done, c :: s =>
    if isBlank c then scan fuel done s
    else if c = '#' then scan fuel done (s.dropWhile fun c => c != '\n' && c != '\r')
    else
      match first? (c :: s) with
      | some (t, r) => scan fuel (t :: done) r
      | none => none

def tokens? (s : String) : Option (List Token) :=
  let cs := s.toList
  scan cs.length [] cs

end Token
end Rdf
end OntologyModel

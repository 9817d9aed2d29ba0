/-
The parts of an IRI and the characters that they admit.

An IRI reference has up to five parts: scheme, authority, path, query and
fragment.  It is cut at the first delimiter of each kind, whatever the characters
between them; `isValid` then says whether every part consists of characters that
it admits.  A percent sign must be followed by two hexadecimal digits.
-/
import OntologyModel.Text.Ranges

namespace OntologyModel

/-- An IRI reference in its parts, without their delimiters. -/
structure Iri where
  scheme : Option (List Char)
  authority : Option (List Char)
  path : List Char
  query : Option (List Char)
  fragment : Option (List Char)
deriving DecidableEq, Repr

namespace Iri

open Text

def isSchemeChar (c : Char) : Bool :=
  isLatin c || c.isDigit || c = '+' || c = '-' || c = '.'

def splitScheme (s : List Char) : Option (List Char) × List Char :=
  let scheme := s.takeWhile isSchemeChar
  match scheme, s.dropWhile isSchemeChar with
  | c :: _, ':' :: rest => if isLatin c then (some scheme, rest) else (none, s)
  | _, _ => (none, s)

def splitAuthority : List Char → Option (List Char) × List Char
  | '/' :: '/' :: s =>
    let stops := fun c => c = '/' || c = '?' || c = '#'
    (some (s.takeWhile fun c => !stops c), s.dropWhile fun c => !stops c)
  | s => (none, s)

def splitAt (delimiter : Char) (s : List Char) : List Char × Option (List Char) :=
  (s.takeWhile (· != delimiter),
    match s.dropWhile (· != delimiter) with
    | [] => none
    | _ :: rest => some rest)

def split (s : List Char) : Iri :=
  let (scheme, s) := splitScheme s
  let (authority, s) := splitAuthority s
  let (s, fragment) := splitAt '#' s
  let (path, query) := splitAt '?' s
  ⟨scheme, authority, path, query, fragment⟩

def join (i : Iri) : List Char :=
  ((i.scheme.map fun s => s ++ [':']).getD []) ++
    ((i.authority.map fun s => '/' :: '/' :: s).getD []) ++ i.path ++
    ((i.query.map fun s => '?' :: s).getD []) ++
    ((i.fragment.map fun s => '#' :: s).getD [])

/-- The characters beyond ASCII that every part admits. -/
def internationalRanges : List (Nat × Nat) :=
  [(0xA0, 0xD7FF), (0xF900, 0xFDCF), (0xFDF0, 0xFFEF), (0x10000, 0x1FFFD), (0x20000, 0x2FFFD),
    (0x30000, 0x3FFFD), (0x40000, 0x4FFFD), (0x50000, 0x5FFFD), (0x60000, 0x6FFFD),
    (0x70000, 0x7FFFD), (0x80000, 0x8FFFD), (0x90000, 0x9FFFD), (0xA0000, 0xAFFFD),
    (0xB0000, 0xBFFFD), (0xC0000, 0xCFFFD), (0xD0000, 0xDFFFD), (0xE1000, 0xEFFFD)]

/-- The characters for private use, which a query admits. -/
def privateRanges : List (Nat × Nat) :=
  [(0xE000, 0xF8FF), (0xF0000, 0xFFFFD), (0x100000, 0x10FFFD)]

def isCommonChar (c : Char) : Bool :=
  isLatin c || c.isDigit || ['-', '.', '_', '~', '!', '$', '&', '\'', '(', ')', '*', '+', ',', ';',
    '='].contains c || inRanges internationalRanges c

/-- Whether a text consists of admitted characters and escapes by percent. -/
def admits (p : Char → Bool) : List Char → Bool
  | [] => true
  | '%' :: a :: b :: s => isHexDigit a && isHexDigit b && admits p s
  | c :: s => c != '%' && p c && admits p s

def isPathChar (c : Char) : Bool := isCommonChar c || c = ':' || c = '@' || c = '/'

def isFragmentChar (c : Char) : Bool := isPathChar c || c = '?'

def isQueryChar (c : Char) : Bool := isFragmentChar c || inRanges privateRanges c

/-- Whether a host is valid: a name, or an address in brackets, perhaps with a
number after a colon. -/
def isHost (s : List Char) : Bool :=
  match s with
  | '[' :: rest =>
    let ending := (rest.dropWhile (· != ']')).drop 1
    rest.contains ']' && (rest.takeWhile (· != ']')).any (· = ':') &&
      (rest.takeWhile (· != ']')).all (fun c => isHexDigit c || c = ':' || c = '.') &&
      (ending.isEmpty || (ending.head? = some ':' && (ending.drop 1).all Char.isDigit))
  | _ =>
    let (name, number) := splitAt ':' s
    admits isCommonChar name && ((number.map fun d => d.all Char.isDigit).getD true)

def isAuthority (s : List Char) : Bool :=
  match splitAt '@' s with
  | (user, some host) => admits (fun c => isCommonChar c || c = ':') user && isHost host
  | (host, none) => isHost host

def isValid (i : Iri) : Bool :=
  ((i.authority.map isAuthority).getD true) && admits isPathChar i.path &&
    ((i.query.map (admits isQueryChar)).getD true) &&
    ((i.fragment.map (admits isFragmentChar)).getD true)

/-- Whether a text is an IRI: a valid reference with a scheme. -/
def isAbsolute (s : List Char) : Bool :=
  let i := split s
  i.scheme.isSome && i.isValid

end Iri
end OntologyModel

/-
Reading JSON text.

The text is first cut into marks and leaves; a leaf is a string, a number or one
of the three words.  Values are then read from that list.  Arrays and objects
may be nested at most 127 deep, and a text holds exactly one value.
-/
import OntologyModel.Json.Number

namespace OntologyModel
namespace Json

inductive Token where
  | mark (c : Char)
  | leaf (v : Value)
deriving Repr

namespace Token

def hexValue? (c : Char) : Option Nat :=
  let n := c.toNat
  if 48 ≤ n && n ≤ 57 then some (n - 48)
  else if 65 ≤ n && n ≤ 70 then some (n - 55)
  else if 97 ≤ n && n ≤ 102 then some (n - 87)
  else none

def hexUnit? (a b c d : Char) : Option Nat := do
  let a ← hexValue? a
  let b ← hexValue? b
  let c ← hexValue? c
  let d ← hexValue? d
  return ((a * 16 + b) * 16 + c) * 16 + d

def shortEscape? (c : Char) : Option Char :=
  if c = '"' || c = '\\' || c = '/' then some c
  else if c = 'b' then some (Char.ofNat 8)
  else if c = 'f' then some (Char.ofNat 12)
  else if c = 'n' then some '\n'
  else if c = 'r' then some '\r'
  else if c = 't' then some '\t'
  else none

/-- Reads a string after its opening quotation mark; the characters read so far
stand in `done`, the last one first.  Two escaped surrogates make one character,
and a surrogate without its partner is refused. -/
def string? (done : List Char) : List Char → Option (String × List Char)
  | [] => none
  | '"' :: rest => some (String.ofList done.reverse, rest)
  | '\\' :: 'u' :: a :: b :: c :: d :: rest =>
    match hexUnit? a b c d with
    | none => none
    | some unit =>
      if 0xD800 ≤ unit && unit < 0xDC00 then
        match rest with
        | '\\' :: 'u' :: e :: f :: g :: h :: rest' =>
          match hexUnit? e f g h with
          | none => none
          | some low =>
            if 0xDC00 ≤ low && low < 0xE000 then
              string? (Char.ofNat (0x10000 + (unit - 0xD800) * 0x400 + (low - 0xDC00)) :: done)
                rest'
            else none
        | _ => none
      else if 0xDC00 ≤ unit && unit < 0xE000 then none
      else string? (Char.ofNat unit :: done) rest
  | '\\' :: c :: rest =>
    match shortEscape? c with
    | none => none
    | some e => string? (e :: done) rest
  | c :: rest => if c.toNat < 32 || c = '\\' then none else string? (c :: done) rest

def digits (s : List Char) : List Char × List Char :=
  (s.takeWhile Char.isDigit, s.dropWhile Char.isDigit)

def fraction? (s : List Char) : Option (Option (List Char) × List Char) :=
  match s with
  | '.' :: rest =>
    let (ds, rest) := digits rest
    if ds.isEmpty then none else some (some ds, rest)
  | _ => some (none, s)

def exponent? (s : List Char) : Option (Option Int × List Char) :=
  match s with
  | e :: rest =>
    if e = 'e' || e = 'E' then
      let (negative, rest) :=
        match rest with
        | '-' :: rest' => (true, rest')
        | '+' :: rest' => (false, rest')
        | _ => (false, rest)
      let (ds, rest) := digits rest
      if ds.isEmpty then none
      else
        let n : Int := Decimal.naturalOfDigits ds
        some (some (if negative then -n else n), rest)
    else some (none, s)
  | [] => some (none, s)

/-- Reads a number.  A leading zero stands alone. -/
def number? (s : List Char) : Option (Number × List Char) := do
  let (negative, s) := match s with
    | '-' :: rest => (true, rest)
    | _ => (false, s)
  let (whole, s) := digits s
  let _ ← if whole.isEmpty || (whole.head? = some '0' && whole.length != 1) then none else some ()
  let (fraction, s) ← fraction? s
  let (exponent, s) ← exponent? s
  let n ← Number.ofParts negative whole fraction exponent
  return (n, s)

def isBlank (c : Char) : Bool :=
  c = ' ' || c = '\t' || c = '\n' || c = '\r'

def isMark (c : Char) : Bool :=
  c = '[' || c = ']' || c = '\x7b' || c = '\x7d' || c = ',' || c = ':'

/-- Cuts a text into tokens.  Every step takes at least one character, so the
length of the text is fuel enough. -/
def scan : Nat → List Token → List Char → Option (List Token)
  | _, done, [] => some done.reverse
  | 0, _, _ :: _ => none
  | fuel + 1, done, c :: rest =>
    if isBlank c then scan fuel done rest
    else if isMark c then scan fuel (.mark c :: done) rest
    else if c = '"' then
      match string? [] rest with
      | none => none
      | some (s, rest) => scan fuel (.leaf (.text s) :: done) rest
    else
      match c :: rest with
      | 'n' :: 'u' :: 'l' :: 'l' :: rest => scan fuel (.leaf .null :: done) rest
      | 't' :: 'r' :: 'u' :: 'e' :: rest => scan fuel (.leaf (.bool true) :: done) rest
      | 'f' :: 'a' :: 'l' :: 's' :: 'e' :: rest => scan fuel (.leaf (.bool false) :: done) rest
      | s =>
        match number? s with
        | none => none
        | some (n, rest) => scan fuel (.leaf (.number n) :: done) rest

end Token

namespace Value

mutual
/-- Reads a value; `depth` bounds the nesting and `fuel` the number of tokens. -/
def read : Nat → Nat → List Token → Option (Value × List Token)
  | 0, _, _ => none
  | _, _, .leaf v :: rest => some (v, rest)
  | fuel + 1, depth + 1, .mark '[' :: rest =>
    match rest with
    | .mark ']' :: rest => some (.array [], rest)
    | _ => (readItems fuel depth [] rest).map fun (vs, rest) => (.array vs, rest)
  | fuel + 1, depth + 1, .mark '\x7b' :: rest =>
    match rest with
    | .mark '\x7d' :: rest => some (.object [], rest)
    | _ => (readMembers fuel depth [] rest).map fun (ms, rest) => (.object ms, rest)
  | _, _, _ => none

def readItems : Nat → Nat → List Value → List Token → Option (List Value × List Token)
  | 0, _, _, _ => none
  | fuel + 1, depth, done, ts =>
    match read fuel depth ts with
    | some (v, .mark ',' :: rest) => readItems fuel depth (v :: done) rest
    | some (v, .mark ']' :: rest) => some ((v :: done).reverse, rest)
    | _ => none

def readMembers :
    Nat → Nat → List (String × Value) → List Token →
      Option (List (String × Value) × List Token)
  | 0, _, _, _ => none
  | fuel + 1, depth, done, .leaf (.text n) :: .mark ':' :: ts =>
    match read fuel depth ts with
    | some (v, .mark ',' :: rest) => readMembers fuel depth ((n, v) :: done) rest
    | some (v, .mark '\x7d' :: rest) => some (((n, v) :: done).reverse, rest)
    | _ => none
  | _, _, _, _ => none
end

def maxDepth : Nat := 127

/-- The value that a text holds, or none when it holds no value or more than
one. -/
def parse? (s : String) : Option Value :=
  let cs := s.toList
  match Token.scan cs.length [] cs with
  | none => none
  | some ts =>
    match read (2 * ts.length + 1) maxDepth ts with
    | some (v, []) => some v
    | _ => none

end Value
end Json
end OntologyModel

/-
JSON text.

`quote` writes a string with the short escapes and `\u00xx` for the other
control characters; `compact` writes a value without blanks, and `pretty` one
member or item a line, indented by two columns a level.
-/
import OntologyModel.Json.Number

namespace OntologyModel
namespace Json

def hexDigit (n : Nat) : Char :=
  if n < 10 then Char.ofNat ('0'.toNat + n) else Char.ofNat ('a'.toNat + (n - 10))

def escape (c : Char) : List Char :=
  if c = '"' then ['\\', '"']
  else if c = '\\' then ['\\', '\\']
  else if c = '\n' then ['\\', 'n']
  else if c = '\r' then ['\\', 'r']
  else if c = '\t' then ['\\', 't']
  else if c.toNat = 8 then ['\\', 'b']
  else if c.toNat = 12 then ['\\', 'f']
  else if c.toNat < 32 then
    ['\\', 'u', '0', '0', hexDigit (c.toNat / 16), hexDigit (c.toNat % 16)]
  else [c]

def quote (s : String) : List Char :=
  '"' :: (s.toList.flatMap escape ++ ['"'])

namespace Value

mutual
def compact : Value → List Char
  | .null => "null".toList
  | .bool true => "true".toList
  | .bool false => "false".toList
  | .number n => n.render
  | .text s => quote s
  | .array items => '[' :: (compactItems items ++ [']'])
  | .object members => '\x7b' :: (compactMembers members ++ ['\x7d'])

def compactItems : List Value → List Char
  | [] => []
  | [v] => compact v
  | v :: rest => compact v ++ ',' :: compactItems rest

def compactMembers : List (String × Value) → List Char
  | [] => []
  | [(n, v)] => quote n ++ ':' :: compact v
  | (n, v) :: rest => quote n ++ ':' :: (compact v ++ ',' :: compactMembers rest)
end

/-- A line feed and the blanks that indent the line after it. -/
def newline (level : Nat) : List Char :=
  '\n' :: List.replicate (2 * level) ' '

mutual
/-- A value whose first line stands at the given level of indentation.  An empty
array or object stays on its line. -/
def pretty (level : Nat) : Value → List Char
  | .null => "null".toList
  | .bool true => "true".toList
  | .bool false => "false".toList
  | .number n => n.render
  | .text s => quote s
  | .array [] => ['[', ']']
  | .array (v :: items) =>
    '[' :: (newline (level + 1) ++ (pretty (level + 1) v ++
      (prettyItems level items ++ (newline level ++ [']']))))
  | .object [] => ['\x7b', '\x7d']
  | .object ((n, v) :: members) =>
    '\x7b' :: (newline (level + 1) ++ (quote n ++ (':' :: ' ' :: (pretty (level + 1) v ++
      (prettyMembers level members ++ (newline level ++ ['\x7d']))))))

def prettyItems (level : Nat) : List Value → List Char
  | [] => []
  | v :: rest =>
    ',' :: (newline (level + 1) ++ (pretty (level + 1) v ++ prettyItems level rest))

def prettyMembers (level : Nat) : List (String × Value) → List Char
  | [] => []
  | (n, v) :: rest =>
    ',' :: (newline (level + 1) ++ (quote n ++ (':' :: ' ' :: (pretty (level + 1) v ++
      prettyMembers level rest))))
end

end Value
end Json
end OntologyModel

/-
Classes of characters, given by ranges of code points.
-/
namespace OntologyModel
namespace Text

def inRanges (ranges : List (Nat × Nat)) (c : Char) : Bool :=
  ranges.any fun r => r.1 ≤ c.toNat && c.toNat ≤ r.2

def isHexDigit (c : Char) : Bool := inRanges [(48, 57), (65, 70), (97, 102)] c

def isLatin (c : Char) : Bool := inRanges [(65, 90), (97, 122)] c

/-- An ASCII letter in lower case; any other character as it is. -/
def lower (s : String) : String := String.ofList (s.toList.map Char.toLower)

end Text
end OntologyModel

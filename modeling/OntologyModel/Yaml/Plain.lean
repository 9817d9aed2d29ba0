/-
Reading plain scalars.

A plain scalar is a row of words.  It ends at a colon before a blank, at a
comment, at the end of the document and, outside of brackets, at a line that
starts further left than the block; inside brackets it ends at their marks too.
-/
import OntologyModel.Yaml.Place

namespace OntologyModel
namespace Yaml
namespace Plain

def isFlowMark (c : Char) : Bool :=
  c = ',' || c = '[' || c = ']' || c = '\x7b' || c = '\x7d'

/-- Whether a plain scalar may start with a character, seen with what follows. -/
def startsHere (flow : Bool) (c : Char) (rest : List Place) : Bool :=
  if c = '-' then !blankNext rest
  else if c = '?' || c = ':' then !flow && !blankNext rest
  else !isSpacing c && !startIndicators.contains c

/-- One word; none if a colon in brackets stands before a mark. -/
def word? (flow : Bool) : List Place → Option (List Char × List Place)
  | [] => some ([], [])
  | p :: rest =>
    if isSpacing p.char then some ([], p :: rest)
    else if p.char = ':' && flow &&
        (rest.head?.map fun q => isFlowMark q.char || q.char = '?').getD false then none
    else if (p.char = ':' && blankNext rest) || (flow && isFlowMark p.char) then
      some ([], p :: rest)
    else (word? flow rest).map fun (w, t) => (p.char :: w, t)

def hasEarlyTab (bound : Nat) (crossed : Bool) : List Place → Bool
  | [] => false
  | p :: rest =>
    if isBreak p.char then hasEarlyTab bound true rest
    else if isBlank p.char then
      (p.char = '\t' && crossed && p.column < bound) || hasEarlyTab bound crossed rest
    else false

/-- The words after the first with the gaps in front of them; `fuel` bounds their
count. -/
def more? (flow : Bool) (bound : Nat) : Nat → List Place → Option (List Char × List Place)
  | 0, t => some ([], t)
  | fuel + 1, t =>
    if hasEarlyTab bound false t then none
    else
      let g := takeGap [] [] t
      match g.rest with
      | [] => some ([], [])
      | p :: _ =>
        if ended g.rest || p.char = '#' || (!flow && p.column < bound) then some ([], g.rest)
        else
          match word? flow g.rest with
          | none => none
          | some ([], t') => some ([], t')
          | some (w, t') => (more? flow bound fuel t').map fun (ws, t'') => (g.text ++ w ++ ws, t'')

def read? (flow : Bool) (bound : Nat) (t : List Place) : Option (String × List Place) :=
  match word? flow t with
  | none => none
  | some (w, t') =>
    (more? flow bound t.length t').map fun (ws, t'') => (String.ofList (w ++ ws), t'')

end Plain
end Yaml
end OntologyModel

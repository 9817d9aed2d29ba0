/-
Reading scalars in quotation marks.

Lines are folded into one, whatever their indentation.  Between single marks a
mark is written twice, and between double ones a backslash escapes.
-/
import OntologyModel.Json.Reader
import OntologyModel.Yaml.Place

namespace OntologyModel
namespace Yaml
namespace Quoted

def hexNumber? (n : Nat) : List Place → Option Nat
  | [] => some n
  | p :: rest =>
    match Json.Token.hexValue? p.char with
    | some d => hexNumber? (16 * n + d) rest
    | none => none

def coded? (width : Nat) (t : List Place) : Option (Char × List Place) :=
  if t.length < width then none
  else
    match hexNumber? 0 (t.take width) with
    | some n => if h : n.isValidChar then some (Char.ofNatAux n h, t.drop width) else none
    | none => none

def short? (c : Char) : Option Char :=
  if c = '0' then some (Char.ofNat 0)
  else if c = 'a' then some (Char.ofNat 7)
  else if c = 'b' then some (Char.ofNat 8)
  else if c = 't' || c = '\t' then some '\t'
  else if c = 'n' then some '\n'
  else if c = 'v' then some (Char.ofNat 11)
  else if c = 'f' then some (Char.ofNat 12)
  else if c = 'r' then some '\r'
  else if c = 'e' then some (Char.ofNat 27)
  else if c = 'N' then some (Char.ofNat 0x85)
  else if c = '_' then some (Char.ofNat 0xA0)
  else if c = 'L' then some (Char.ofNat 0x2028)
  else if c = 'P' then some (Char.ofNat 0x2029)
  else if c = ' ' || c = '"' || c = '\'' || c = '/' || c = '\\' then some c
  else none

def escaped? : List Place → Option (Char × List Place)
  | [] => none
  | p :: rest =>
    if p.char = 'x' then coded? 2 rest
    else if p.char = 'u' then coded? 4 rest
    else if p.char = 'U' then coded? 8 rest
    else (short? p.char).map (·, rest)

/-- Reads on after an opening mark; `fuel` bounds the number of steps.  After an
escaped break, blanks are left out and further breaks kept. -/
def read? (mark : Char) : Nat → List Place → Option (List Char × List Place)
  | 0, _ => none
  | _ + 1, [] => none
  | fuel + 1, p :: rest =>
    if ended (p :: rest) then none
    else if p.char = mark then
      match rest with
      | q :: rest' =>
        if mark = '\'' && q.char = mark then
          (read? mark fuel rest').map fun (s, t) => (mark :: s, t)
        else some ([], rest)
      | [] => some ([], [])
    else if p.char = '\\' && mark = '"' then
      match rest with
      | q :: rest' =>
        if isBreak q.char then
          let g := takeGap [] [] rest'
          (read? mark fuel g.rest).map fun (s, t) => (g.breaks ++ s, t)
        else
          match escaped? rest with
          | some (c, t) => (read? mark fuel t).map fun (s, t') => (c :: s, t')
          | none => none
      | [] => none
    else if isBlank p.char || isBreak p.char then
      let g := takeGap [] [] (p :: rest)
      (read? mark fuel g.rest).map fun (s, t) => (g.text ++ s, t)
    else (read? mark fuel rest).map fun (s, t) => (p.char :: s, t)

end Quoted
end Yaml
end OntologyModel

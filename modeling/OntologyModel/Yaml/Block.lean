/-
Reading block scalars.

A block scalar is introduced by a bar or an angle, with marks for what is kept of
the breaks at its end and perhaps a digit for its indentation; else its first
line tells the indentation.  After a bar every break is kept; after an angle a
single line feed between two lines that start with no blank becomes a space.
-/
import OntologyModel.Yaml.Place

namespace OntologyModel
namespace Yaml
namespace Block

inductive Chomping where
  /-- One break. -/
  | clip
  /-- None. -/
  | strip
  /-- All. -/
  | keep
deriving DecidableEq, Repr

structure Header where
  chomping : Chomping
  indentation : Option Nat
deriving DecidableEq, Repr

def chomping? : List Place → Option (Chomping × List Place)
  | p :: rest =>
    if p.char = '+' then some (.keep, rest)
    else if p.char = '-' then some (.strip, rest)
    else none
  | [] => none

def indentation? : List Place → Option (Nat × List Place)
  | p :: rest =>
    if p.char.isDigit then some (p.char.toNat - '0'.toNat, rest) else none
  | [] => none

/-- The marks, in any order, and what follows them.  The digit is never zero. -/
def header? (t : List Place) : Option (Header × List Place) :=
  let (c, n, rest) := match chomping? t with
    | some (c, t') =>
      match indentation? t' with
      | some (n, t'') => (c, some n, t'')
      | none => (c, none, t')
    | none =>
      match indentation? t with
      | some (n, t') =>
        match chomping? t' with
        | some (c, t'') => (c, some n, t'')
        | none => (.clip, some n, t')
      | none => (.clip, none, t)
  if n = some 0 then none else some (⟨c, n⟩, rest)

/-- The rest of the line of the header, which may hold a comment, is left out. -/
def afterHeader? (t : List Place) : Option (List Place) :=
  match t.dropWhile fun p => isBlank p.char with
  | [] => some []
  | p :: rest =>
    if isBreak p.char then some rest
    else if p.char = '#' then
      some (((p :: rest).dropWhile fun q => !isBreak q.char).drop 1)
    else none

/-- Takes blank lines, and the indentation of the line after them: the breaks, the
deepest column reached, and the rest.  A tab cannot indent. -/
def blankLines? (indent : Option Nat) (deepest : Nat) :
    List Place → Option (List Char × Nat × List Place)
  | [] => some ([], deepest, [])
  | p :: rest =>
    let inside := match indent with
      | some n => decide (p.column < n)
      | none => true
    if p.char = ' ' && inside then blankLines? indent deepest rest
    else if p.char = '\t' && inside then none
    else if isBreak p.char then
      (blankLines? indent (max deepest p.column) rest).map fun (bs, d, t) => (p.char :: bs, d, t)
    else some ([], max deepest p.column, p :: rest)

/-- The text of a block, and the breaks behind its last line: the one that ends
the line, and those of blank lines. -/
structure Lines where
  text : List Char
  lineEnd : List Char
  blankEnds : List Char
  rest : List Place

/-- Takes the lines of a block that start in column `indent`; `fuel` bounds their
count.  The state is that behind the line before: its break, the breaks of blank
lines, and whether it started with a blank. -/
def lines? (literal : Bool) (indent : Nat) :
    Nat → List Char → List Char → Bool → List Place → Option Lines
  | 0, lineEnd, blankEnds, _, t => some ⟨[], lineEnd, blankEnds, t⟩
  | _ + 1, lineEnd, blankEnds, _, [] => some ⟨[], lineEnd, blankEnds, []⟩
  | fuel + 1, lineEnd, blankEnds, blankBefore, p :: rest =>
    if p.column = indent then
      let blankHere := isBlank p.char
      let folds := !literal && lineEnd.head? = some '\n' && !blankBefore && !blankHere
      let joint := if folds then (if blankEnds.isEmpty then [' '] else []) else lineEnd
      let line := (p :: rest).takeWhile fun q => !isBreak q.char
      let after := (p :: rest).dropWhile fun q => !isBreak q.char
      match blankLines? (some indent) 0 (after.drop 1) with
      | none => none
      | some (bs, _, t) =>
        (lines? literal indent fuel ((after.take 1).map Place.char) bs blankHere t).map fun l =>
          { l with text := joint ++ blankEnds ++ line.map Place.char ++ l.text }
    else some ⟨[], lineEnd, blankEnds, p :: rest⟩

/-- Reads a block after its bar or angle, in a block whose lines start in column
`bound` or later. -/
def read? (literal : Bool) (bound : Nat) (t : List Place) : Option (String × List Place) :=
  match header? t with
  | none => none
  | some (h, t) =>
    match afterHeader? t with
    | none => none
    | some t =>
      let given := h.indentation.map fun n => bound - 1 + n
      match blankLines? given 0 t with
      | none => none
      | some (bs, deepest, t) =>
        let indent := given.getD (max deepest (max bound 1))
        (lines? literal indent (t.length + 1) [] bs false t).map fun l =>
          let kept := match h.chomping with
            | .strip => []
            | .clip => l.lineEnd
            | .keep => l.lineEnd ++ l.blankEnds
          (String.ofList (l.text ++ kept), l.rest)

end Block
end Yaml
end OntologyModel

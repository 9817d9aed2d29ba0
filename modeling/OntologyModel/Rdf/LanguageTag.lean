/-
Well-formed language tags.

A tag consists of subtags of one to eight letters and digits: a language, up to
three extended languages, a script, a region, variants, extensions and a part for
private use, each of them but the language optional and in this order.
-/
import OntologyModel.Text.Ranges

namespace OntologyModel
namespace Rdf
namespace LanguageTag

open Text

inductive Place where
  | start
  /-- After a language that extended languages may follow, and how many did. -/
  | language (extended : Nat)
  | longLanguage
  | script
  | region
  /-- In an extension; its first subtag may still be missing. -/
  | extension (open_ : Bool)
  /-- In the private part; its first subtag may still be missing. -/
  | private_ (open_ : Bool)
deriving DecidableEq, Repr

def Place.beforeScript : Place → Bool
  | .language _ | .longLanguage => true
  | _ => false

def Place.beforeRegion : Place → Bool
  | .script => true
  | p => p.beforeScript

def Place.beforeVariant : Place → Bool
  | .region => true
  | p => p.beforeRegion

def step (p : Place) (s : List Char) : Option Place :=
  let n := s.length
  let letters := s.all isLatin
  let plain := s.all fun c => isLatin c || c.isDigit
  if n = 0 || 8 < n || !plain then none
  else
    match p with
    | .start =>
      if n < 2 || !letters then none else some (if n < 4 then .language 0 else .longLanguage)
    | .private_ _ => some (.private_ false)
    | _ =>
      if n = 1 then
        if p = .extension true then none
        else if s = ['x'] || s = ['X'] then some (.private_ true)
        else some (.extension true)
      else
        match p with
        | .extension _ => some (.extension false)
        | _ =>
          match p, decide (n = 3) && letters with
          | .language k, true => if k < 3 then some (.language (k + 1)) else none
          | _, _ =>
            if p.beforeScript && n = 4 && letters then some .script
            else if p.beforeRegion && ((n = 2 && letters) || (n = 3 && s.all Char.isDigit)) then
              some .region
            else if p.beforeVariant &&
                (5 ≤ n || (n = 4 && ((s.head?.map Char.isDigit).getD false))) then
              some .region
            else none

def walk : Place → List (List Char) → Option Place
  | p, [] => some p
  | p, s :: rest =>
    match step p s with
    | some q => walk q rest
    | none => none

def subtags (s : List Char) : List (List Char) :=
  s.foldr (fun c parts =>
    if c = '-' then [] :: parts
    else match parts with
      | p :: rest => (c :: p) :: rest
      | [] => [[c]]) [[]]

/-- Tags from before the grammar, which keep their meaning. -/
def grandfathered : List String :=
  ["art-lojban", "cel-gaulish", "en-gb-oed", "i-ami", "i-bnn", "i-default", "i-enochian", "i-hak",
    "i-klingon", "i-lux", "i-mingo", "i-navajo", "i-pwn", "i-tao", "i-tay", "i-tsu", "no-bok",
    "no-nyn", "sgn-be-fr", "sgn-be-nl", "sgn-ch-de", "zh-guoyu", "zh-hakka", "zh-min",
    "zh-min-nan", "zh-xiang"]

def isWellFormed (s : String) : Bool :=
  grandfathered.contains (lower s) ||
    match subtags s.toList with
    | ['x'] :: rest | ['X'] :: rest =>
      !rest.isEmpty &&
        rest.all fun t =>
          !t.isEmpty && t.length ≤ 8 && t.all fun c => isLatin c || c.isDigit
    | parts =>
      match walk .start parts with
      | some (.extension true) | some (.private_ true) | none => false
      | some _ => true

end LanguageTag
end Rdf
end OntologyModel

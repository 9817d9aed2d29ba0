/-
Derived classes are the converse of parents.

What linking enters at a place depends on the ids and parents of the list alone, so the
classes keep their places and everything else that they say.  `derivedAt` is what stands
at a place afterwards.  The place of an id is its last one, which makes an earlier
namesake end up with no links, and a class whose id is used once with all of them.
-/
import OntologyModel.Model.Derived
import OntologyModel.Proofs.Ascending
import Mathlib.Data.List.Induction

namespace OntologyModel
namespace Class

variable {classes classes' : List Class} {c : Class} {i : Nat}

/-! ## Places -/

theorem places_concat (ids : List String) (id x : String) :
    places (ids ++ [id]) x = if x = id then some ids.length else places ids x := by
  rw [places, List.zipIdx_append, List.foldl_append, Nat.zero_add]
  rfl

theorem getElem?_concat_eq_some_iff {α : Type} {l : List α} {a x : α} :
    (l ++ [a])[i]? = some x ↔ l[i]? = some x ∨ i = l.length ∧ a = x := by
  rcases Nat.lt_trichotomy i l.length with hi | rfl | hi
  · rw [List.getElem?_append_left hi, or_iff_left fun h => Nat.ne_of_lt hi h.1]
  · rw [List.getElem?_concat_length, Option.some.injEq, List.getElem?_eq_none (Nat.le_refl _)]
    exact ⟨fun h => .inr ⟨rfl, h⟩, fun h => (h.resolve_left (by simp)).2⟩
  · rw [List.getElem?_eq_none (by rw [List.length_append, List.length_singleton]; omega),
      List.getElem?_eq_none (Nat.le_of_lt hi)]
    exact ⟨fun h => absurd h (by simp), fun h => absurd (h.resolve_left (by simp)).1 (by omega)⟩

/-- The place of an id is the last one at which it stands. -/
theorem places_eq_some_iff {ids : List String} {id : String} :
    places ids id = some i ↔ ids[i]? = some id ∧ ∀ j, i < j → ids[j]? ≠ some id := by
  induction ids using List.reverseRecOn with
  | nil => exact ⟨fun h => absurd h (by simp [places]), fun h => absurd h.1 (by simp)⟩
  | append_singleton ids x ih =>
    rw [places_concat]
    by_cases hx : id = x
    · subst hx
      rw [if_pos rfl, Option.some.injEq]
      constructor
      · rintro rfl
        refine ⟨List.getElem?_concat_length, fun j hj => ?_⟩
        rw [List.getElem?_eq_none (by rw [List.length_append, List.length_singleton]; omega)]
        exact nofun
      · intro h
        obtain ⟨hi, hlast⟩ := h
        rcases getElem?_concat_eq_some_iff.1 hi with hi | ⟨hi, -⟩
        · -- The id stands at the end, after `i`.
          have hlt : i < ids.length := (List.getElem?_eq_some_iff.1 hi).1
          exact absurd List.getElem?_concat_length (hlast ids.length hlt)
        · exact hi.symm
    · have hget (j : Nat) : (ids ++ [x])[j]? = some id ↔ ids[j]? = some id := by
        rw [getElem?_concat_eq_some_iff, or_iff_left fun h => hx h.2.symm]
      rw [if_neg hx, ih, hget]
      exact and_congr_right fun _ => forall₂_congr fun j _ => not_congr (hget j).symm

/-! ## Links -/

theorem mem_links {place : String → Option Nat} {l : Link} :
    l ∈ links place classes ↔
      ∃ e ∈ classes, e.id = l.child ∧ ∃ p ∈ e.parentIds, place p = some l.place := by
  rw [links, List.mem_flatMap]
  refine exists_congr fun e => and_congr_right fun _ => ?_
  rw [List.mem_filterMap]
  constructor
  · intro h
    obtain ⟨p, hp, hl⟩ := h
    obtain ⟨j, hj, rfl⟩ := Option.map_eq_some_iff.1 hl
    exact ⟨rfl, p, hp, hj⟩
  · intro h
    obtain ⟨hid, p, hp, hplace⟩ := h
    refine ⟨p, hp, ?_⟩
    rw [hplace, hid]
    rfl

def childrenAt (ls : List Link) (i : Nat) : List String :=
  (ls.filter fun l => l.place = i).map Link.child

theorem mem_childrenAt {ls : List Link} {x : String} : x ∈ childrenAt ls i ↔ ⟨i, x⟩ ∈ ls := by
  rw [childrenAt, List.mem_map]
  constructor
  · intro h
    obtain ⟨l, hl, rfl⟩ := h
    obtain ⟨hmem, hplace⟩ := List.mem_filter.1 hl
    exact of_decide_eq_true hplace ▸ hmem
  · intro h
    exact ⟨_, List.mem_filter.2 ⟨h, decide_eq_true rfl⟩, rfl⟩

theorem childrenAt_cons (l : Link) (ls : List Link) (i : Nat) :
    childrenAt (l :: ls) i = (if l.place = i then [l.child] else []) ++ childrenAt ls i := by
  rw [childrenAt, List.filter_cons]
  by_cases hl : l.place = i
  · rw [if_pos (decide_eq_true hl), if_pos hl]
    rfl
  · rw [if_neg (by simpa using hl), if_neg hl]
    rfl

theorem getElem?_enter (classes : List Class) (l : Link) (i : Nat) :
    (enter classes l)[i]? = classes[i]?.map fun c =>
      { c with derivedIds := c.derivedIds ++ if l.place = i then [l.child] else [] } := by
  rw [enter, List.getElem?_modify]
  refine congrArg (Option.map · classes[i]?) (funext fun c => ?_)
  by_cases hl : l.place = i
  · rw [if_pos hl, if_pos hl]
  · rw [if_neg hl, if_neg hl, List.append_nil]

/-- Entering links adds to each class the children of its own place. -/
theorem getElem?_foldl_enter (ls : List Link) (classes : List Class) (i : Nat) :
    (ls.foldl enter classes)[i]? = classes[i]?.map fun c =>
      { c with derivedIds := c.derivedIds ++ childrenAt ls i } := by
  induction ls generalizing classes with
  | nil =>
    simp only [childrenAt, List.filter_nil, List.map_nil, List.append_nil]
    exact Option.map_id'.symm
  | cons l ls ih =>
    rw [List.foldl_cons, ih, getElem?_enter, Option.map_map, childrenAt_cons]
    refine congrArg (Option.map · classes[i]?) (funext fun c => ?_)
    rw [← List.append_assoc]
    rfl

/-! ## Linked classes -/

def derivedAt (classes : List Class) (i : Nat) : List String :=
  Text.ascendingTexts (childrenAt (links (places (classes.map Class.id)) classes) i)

theorem getElem?_linkDerived (classes : List Class) (i : Nat) :
    (linkDerived classes)[i]? = classes[i]?.map fun c =>
      { c with derivedIds := derivedAt classes i } := by
  rw [linkDerived, List.getElem?_map, getElem?_foldl_enter, List.getElem?_map, Option.map_map,
    Option.map_map]
  rfl

/-- The part of a class that linking reads. -/
def kinship (c : Class) : String × List String := (c.id, c.parentIds)

theorem map_kinship_linkDerived (classes : List Class) :
    (linkDerived classes).map kinship = classes.map kinship := by
  refine List.ext_getElem? fun i => ?_
  rw [List.getElem?_map, getElem?_linkDerived, Option.map_map, List.getElem?_map]
  rfl

theorem length_linkDerived (classes : List Class) :
    (linkDerived classes).length = classes.length := by
  rw [← List.length_map kinship, map_kinship_linkDerived, List.length_map]

/-- Lists of the same ids and parents are linked to the same classes. -/
theorem derivedAt_congr (h : classes.map kinship = classes'.map kinship) (i : Nat) :
    derivedAt classes i = derivedAt classes' i := by
  have hids (l : List Class) : l.map Class.id = (l.map kinship).map Prod.fst := by
    rw [List.map_map]
    rfl
  have hlinks (place : String → Option Nat) (l : List Class) :
      links place l = (l.map kinship).flatMap fun kin =>
        kin.2.filterMap fun parent => (place parent).map (⟨·, kin.1⟩) := by
    rw [List.flatMap_map]
    rfl
  rw [derivedAt, derivedAt, hids, hids, hlinks, hlinks, h]

theorem mem_derivedAt {x : String} :
    x ∈ derivedAt classes i ↔
      ∃ e ∈ classes, e.id = x ∧ ∃ p ∈ e.parentIds, places (classes.map Class.id) p = some i := by
  rw [derivedAt, Text.mem_ascendingTexts, mem_childrenAt, mem_links]

/-- The place of a class is the place of its id unless a namesake comes later. -/
theorem places_eq_some_iff_of_getElem? (hc : classes[i]? = some c) {p : String} :
    places (classes.map Class.id) p = some i ↔
      c.id = p ∧ ∀ j d, i < j → classes[j]? = some d → d.id ≠ c.id := by
  have hget (j : Nat) : (classes.map Class.id)[j]? = some p ↔
      ∃ d, classes[j]? = some d ∧ d.id = p := by
    rw [List.getElem?_map, Option.map_eq_some_iff]
  rw [places_eq_some_iff, hget, hc]
  constructor
  · intro h
    obtain ⟨⟨e, he, rfl⟩, hlast⟩ := h
    cases he
    exact ⟨rfl, fun j d hj hd hid => hlast j hj ((hget j).2 ⟨d, hd, hid⟩)⟩
  · intro h
    obtain ⟨rfl, hlast⟩ := h
    refine ⟨⟨c, rfl, rfl⟩, fun j hj hp => ?_⟩
    obtain ⟨d, hd, hid⟩ := (hget j).1 hp
    exact hlast j d hj hd hid

/-! ## Ids that are used once -/

/-- The ids of the classes that have `id` among their parents, in ascending
order. -/
def derivedFrom (classes : List Class) (id : String) : List String :=
  Text.ascendingTexts ((classes.filter fun c => c.parentIds.contains id).map Class.id)

theorem mem_derivedFrom {id x : String} :
    x ∈ derivedFrom classes id ↔ ∃ c ∈ classes, c.id = x ∧ id ∈ c.parentIds := by
  rw [derivedFrom, Text.mem_ascendingTexts, List.mem_map]
  refine exists_congr fun c => ?_
  rw [List.mem_filter, List.contains_iff_mem, and_assoc, and_comm (a := c.id = x)]

theorem pairwise_derivedFrom (classes : List Class) (id : String) :
    (derivedFrom classes id).Pairwise (· < ·) := Text.pairwise_ascendingTexts _

/-- A class without a namesake further on is linked to all that is derived from its
id. -/
theorem derivedAt_eq_derivedFrom (hc : classes[i]? = some c)
    (hlast : ∀ j d, i < j → classes[j]? = some d → d.id ≠ c.id) :
    derivedAt classes i = derivedFrom classes c.id := by
  have hascending := Text.pairwise_ascending Text.strictOrder_before
  refine Text.eq_of_ascending Text.strictOrder_before (hascending _) (hascending _) fun x => ?_
  show x ∈ derivedAt classes i ↔ x ∈ derivedFrom classes c.id
  rw [mem_derivedAt, mem_derivedFrom]
  refine exists_congr fun e => and_congr_right fun _ => and_congr_right fun _ => ?_
  constructor
  · intro h
    obtain ⟨p, hp, hplace⟩ := h
    rw [((places_eq_some_iff_of_getElem? hc).1 hplace).1]
    exact hp
  · exact fun hp => ⟨c.id, hp, (places_eq_some_iff_of_getElem? hc).2 ⟨rfl, hlast⟩⟩

theorem linkDerived_eq_map (hnodup : (classes.map Class.id).Nodup) :
    linkDerived classes =
      classes.map fun c => { c with derivedIds := derivedFrom classes c.id } := by
  refine List.ext_getElem? fun i => ?_
  rw [getElem?_linkDerived, List.getElem?_map]
  cases hc : classes[i]? with
  | none => rfl
  | some c =>
    have hlast : ∀ j d, i < j → classes[j]? = some d → d.id ≠ c.id := by
      intro j d hj hd hid
      have hids : (classes.map Class.id)[i]? = (classes.map Class.id)[j]? := by
        rw [List.getElem?_map, List.getElem?_map, hc, hd, Option.map_some, Option.map_some, hid]
      have hi : i < (classes.map Class.id).length := by
        rw [List.length_map]
        exact (List.getElem?_eq_some_iff.1 hc).1
      exact absurd ((List.getElem?_inj hi hnodup).1 hids) (Nat.ne_of_lt hj)
    rw [Option.map_some, Option.map_some, derivedAt_eq_derivedFrom hc hlast]

/-! ## Every list -/

/-- What linking enters for the class `c` at place `i`: whatever is derived from its id,
or nothing when a namesake comes later. -/
structure Enters (classes : List Class) (i : Nat) (c : Class) (derived : List String) : Prop where
  ascending : derived.Pairwise (· < ·)
  mem_of_last : (∀ j d, i < j → classes[j]? = some d → d.id ≠ c.id) →
    ∀ x, x ∈ derived ↔ ∃ e ∈ classes, e.id = x ∧ c.id ∈ e.parentIds
  nil_of_namesake : ∀ j d, i < j → classes[j]? = some d → d.id = c.id → derived = []

theorem enters_derivedAt (hc : classes[i]? = some c) :
    Enters classes i c (derivedAt classes i) where
  ascending := Text.pairwise_ascendingTexts _
  mem_of_last hlast x := by rw [derivedAt_eq_derivedFrom hc hlast, mem_derivedFrom]
  nil_of_namesake j d hj hd hid := by
    refine List.eq_nil_iff_forall_not_mem.2 fun x hx => ?_
    obtain ⟨e, -, -, p, -, hplace⟩ := mem_derivedAt.1 hx
    exact ((places_eq_some_iff_of_getElem? hc).1 hplace).2 j d hj hd hid

theorem linkDerived_linkDerived (classes : List Class) :
    linkDerived (linkDerived classes) = linkDerived classes := by
  refine List.ext_getElem? fun i => ?_
  rw [getElem?_linkDerived, getElem?_linkDerived, Option.map_map,
    derivedAt_congr (map_kinship_linkDerived classes)]
  rfl

/-- Linking replaces the derived classes of each class and nothing else, whatever ids and
links the list has, and a second time it changes nothing. -/
theorem linkDerived_replaces (classes : List Class) :
    (linkDerived classes).length = classes.length ∧
    (∀ (i : Nat) (c : Class), classes[i]? = some c → ∃ derived,
      (linkDerived classes)[i]? = some { c with derivedIds := derived } ∧
        Enters classes i c derived) ∧
    linkDerived (linkDerived classes) = linkDerived classes := by
  refine ⟨length_linkDerived classes, fun i c hc => ⟨derivedAt classes i, ?_, enters_derivedAt hc⟩,
    linkDerived_linkDerived classes⟩
  rw [getElem?_linkDerived, hc, Option.map_some]

/-- Twins with links from before, the child of both, a class that is its own parent, and
parents that are repeated or unknown. -/
def twins : List Class :=
  [⟨"a", "first", [], ["old"], [], "", none, .optional⟩,
    ⟨"c", "c", ["a", "elsewhere", "a", "c"], [], [], "", none, .yes⟩,
    ⟨"a", "second", ["c"], ["old"], [], "", none, .optional⟩,
    ⟨"b", "b", ["a"], ["b", "a"], [], "", none, .optional⟩]

theorem linkDerived_replaces_twins :
    (linkDerived twins).map Class.derivedIds = [[], ["a", "c"], ["b", "c"], []] ∧
      ∃ derived, (linkDerived twins)[2]? =
          some ⟨"a", "second", ["c"], derived, [], "", none, .optional⟩ ∧
        Enters twins 2 ⟨"a", "second", ["c"], ["old"], [], "", none, .optional⟩ derived :=
  ⟨by decide, (linkDerived_replaces twins).2.1 2 _ rfl⟩

end Class
end OntologyModel

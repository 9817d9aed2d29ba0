/-
Linking and ordering.

Linking looks for classes by their places and ordering moves them, but with ids that are
used once a class is linked to the same classes wherever it stands.  The order, for its
part, does not look at links: it takes the same steps and meets the same cycle.  So the two
may be done one after the other in either way.
-/
import OntologyModel.Proofs.Arrangement
import OntologyModel.Proofs.Precedence.Order
import Mathlib.Data.List.Induction

namespace OntologyModel

/-! ## Rearranged lists -/

namespace Text

variable {α β : Type}

def rearranged (places : List Nat) (l : List α) : List α := places.filterMap (l[·]?)

theorem rearranged_map (places : List Nat) (f : α → β) (l : List α) :
    rearranged places (l.map f) = (rearranged places l).map f := by
  rw [rearranged, rearranged, List.map_filterMap]
  exact List.filterMap_congr fun i _ => List.getElem?_map

theorem rearranged_range (l : List α) : rearranged (List.range l.length) l = l := by
  induction l using List.reverseRecOn with
  | nil => rfl
  | append_singleton l a ih =>
    have hfront : rearranged (List.range l.length) (l ++ [a]) =
        rearranged (List.range l.length) l :=
      List.filterMap_congr fun i hi => List.getElem?_append_left (List.mem_range.1 hi)
    rw [List.length_append, List.length_singleton, List.range_succ, rearranged,
      List.filterMap_append, ← rearranged, hfront, ih, List.filterMap_cons,
      List.getElem?_concat_length]
    rfl

theorem perm_rearranged {places : List Nat} {l : List α}
    (h : places.Perm (List.range l.length)) : (rearranged places l).Perm l :=
  (h.filterMap _).trans (.of_eq (rearranged_range l))

end Text

/-! ## Linking -/

namespace Class

variable {classes classes' : List Class}

theorem derivedFrom_perm (h : classes'.Perm classes) (id : String) :
    derivedFrom classes' id = derivedFrom classes id :=
  Text.ascending_congr Text.strictOrder_before fun _ => ((h.filter _).map _).mem_iff

/-- Linking a rearranged list goes by what its classes are linked to anyway. -/
theorem linkDerived_eq_map_of_perm (hnodup : (classes.map Class.id).Nodup)
    (h : classes'.Perm classes) :
    linkDerived classes' =
      classes'.map fun c => { c with derivedIds := derivedFrom classes c.id } := by
  rw [linkDerived_eq_map ((h.map Class.id).nodup_iff.2 hnodup)]
  exact List.map_congr_left fun c _ => by rw [derivedFrom_perm h]

def SameButLinks (c c' : Class) : Prop := ∃ ids, c = { c' with derivedIds := ids }

theorem coupling_sameButLinks : Coupling SameButLinks where
  id := by
    rintro _ _ ⟨_, rfl⟩
    rfl
  parentIds := by
    rintro _ _ ⟨_, rfl⟩
    rfl
  link := by
    rintro _ _ ⟨_, rfl⟩ ids
    exact ⟨ids, rfl⟩

end Class

namespace Precedence

open OntologyModel.Class (SameButLinks derivedFrom linkDerived)

variable {classes : List Class}

/-- Classes that differ in their links only are told from each other by them. -/
theorem eq_map_of_sameButLinks {links : String → List String} {out out' : List Class}
    (h : List.Forall₂ SameButLinks out' out) (hlinks : ∀ c ∈ out', c.derivedIds = links c.id) :
    out' = out.map fun c => { c with derivedIds := links c.id } := by
  induction h with
  | nil => rfl
  | @cons _ c _ out hc _ ih =>
    obtain ⟨ids, rfl⟩ := hc
    have hids : ids = links c.id := hlinks _ List.mem_cons_self
    rw [List.map_cons, ← ih fun d hd => hlinks d (List.mem_cons_of_mem _ hd), hids]

theorem order_linkDerived (hnodup : (classes.map Class.id).Nodup) :
    order (linkDerived classes) = (order classes).map linkDerived := by
  have hmap := Class.linkDerived_eq_map hnodup
  have hsame : List.Forall₂ SameButLinks (linkDerived classes) classes := by
    rw [hmap]
    exact List.forall₂_map_left_iff.2 (List.forall₂_same.2 fun c _ => ⟨_, rfl⟩)
  refine (order_parallel Class.coupling_sameButLinks hsame).eq_map ?_
  intro out' out hlinked hplain hout
  -- The order moves classes but keeps their links.
  have hlinks : ∀ c ∈ out', c.derivedIds = derivedFrom classes c.id := by
    intro c hc
    have hc' := (perm_parentsFirst_of_order hlinked).1.mem_iff.1 hc
    rw [hmap] at hc'
    obtain ⟨d, -, rfl⟩ := List.mem_map.1 hc'
    rfl
  rw [eq_map_of_sameButLinks hout hlinks,
    Class.linkDerived_eq_map_of_perm hnodup (perm_parentsFirst_of_order hplain).1]

/-- With ids that are used once, linking commutes with the order of classes, be it found or
refused, and with every rearrangement of the list. -/
theorem linkDerived_commutes (hnodup : (classes.map Class.id).Nodup) :
    order (linkDerived classes) = (order classes).map linkDerived ∧
      ∀ places : List Nat, places.Perm (List.range classes.length) →
        linkDerived (Text.rearranged places classes) =
          Text.rearranged places (linkDerived classes) := by
  refine ⟨order_linkDerived hnodup, fun places hplaces => ?_⟩
  rw [Class.linkDerived_eq_map_of_perm hnodup (Text.perm_rearranged hplaces),
    Class.linkDerived_eq_map hnodup, Text.rearranged_map]

/-- Two generations, given out of order and with links from before. -/
def generations : List Class :=
  [⟨"c", "c", ["a", "b"], ["a"], [], "", none, .optional⟩,
    ⟨"b", "b", ["a"], [], [], "", none, .optional⟩,
    ⟨"a", "a", ["elsewhere"], [], [], "", none, .optional⟩]

theorem linkDerived_commutes_generations :
    (generations.map Class.id).Nodup ∧ [2, 0, 1].Perm (List.range generations.length) ∧
      order (linkDerived generations) = (order generations).map linkDerived ∧
      linkDerived (Text.rearranged [2, 0, 1] generations) =
        Text.rearranged [2, 0, 1] (linkDerived generations) := by
  have hnodup : (generations.map Class.id).Nodup := by decide
  have hplaces : [2, 0, 1].Perm (List.range generations.length) := by decide
  exact ⟨hnodup, hplaces, (linkDerived_commutes hnodup).1,
    (linkDerived_commutes hnodup).2 [2, 0, 1] hplaces⟩

end Precedence
end OntologyModel

/-
The order of classes.

Putting classes in order either places all of them, each after its parents, or
reports a cycle among their parents that is really there.  When no id is used
twice, the second happens exactly if there is a cycle: in a list with every class
after its parents, the way from a class to a parent leads towards the front.
-/
import OntologyModel.Proofs.Precedence.Cycle

namespace OntologyModel
namespace Precedence

theorem ParentsFirst.congr {known known' : List String} {classes : List Class}
    (h : ParentsFirst known classes) (hk : ∀ id, id ∈ known' → id ∈ known) :
    ParentsFirst known' classes :=
  fun i c hc p hp hp' => h i c hc p hp (hk p hp')

/-- The two ways in which the order of classes ends. -/
theorem order_cases (classes : List Class) :
    (∃ out, order classes = .ok out ∧ out.Perm classes ∧
      ParentsFirst (classes.map Class.id) out) ∨
    (∃ cycle, order classes = .error (.cyclicClassHierarchy cycle) ∧
      Round (HasParent classes) cycle) := by
  have hsorted : (Text.sortStable idBefore classes).Perm classes := Text.perm_sortStable _ _
  obtain ⟨o, ho, hsound⟩ := exists_work_start (Text.sortStable idBefore classes)
  cases o with
  | placed out =>
    refine .inl ⟨out, by rw [order, ho], hsound.1.trans hsorted, hsound.2.congr fun id hid => ?_⟩
    exact (hsorted.map Class.id).mem_iff.2 hid
  | stuck waiting =>
    refine .inr ⟨findCycle waiting, by rw [order, ho], ?_⟩
    exact (Stuck.round_findCycle hsound).mono
      fun x y => HasParent.mono fun c hc => hsorted.mem_iff.1 hc

/-! ## Lists without a cycle -/

variable {classes : List Class}

theorem ParentsFirst.lt_of_hasParent (h : ParentsFirst (classes.map Class.id) classes)
    (hnodup : (classes.map Class.id).Nodup) {x y : String} (hxy : HasParent classes x y)
    {i j : Nat} (hi : (classes.map Class.id)[i]? = some x)
    (hj : (classes.map Class.id)[j]? = some y) : j < i := by
  obtain ⟨⟨c, hc, hcx, hcy⟩, d, hd, hdy⟩ := hxy
  obtain ⟨i', hi'⟩ := List.getElem?_of_mem hc
  obtain ⟨j', hlt, e, hj', hey⟩ := h i' c hi' y hcy (List.mem_map.2 ⟨d, hd, hdy⟩)
  have hix : (classes.map Class.id)[i']? = some x := by
    rw [List.getElem?_map, hi', Option.map_some, hcx]
  have hjy : (classes.map Class.id)[j']? = some y := by
    rw [List.getElem?_map, hj', Option.map_some, hey]
  have hii : i = i' :=
    (List.getElem?_inj (List.getElem?_eq_some_iff.1 hi).1 hnodup).1 (hi.trans hix.symm)
  have hjj : j = j' :=
    (List.getElem?_inj (List.getElem?_eq_some_iff.1 hj).1 hnodup).1 (hj.trans hjy.symm)
  omega

/-- The parents of classes that stand after them, and so on, never lead back. -/
theorem ParentsFirst.acyclic (h : ParentsFirst (classes.map Class.id) classes)
    (hnodup : (classes.map Class.id).Nodup) (id : String) :
    ¬Relation.TransGen (HasParent classes) id id := by
  have hlt : ∀ {x y : String}, Relation.TransGen (HasParent classes) x y →
      ∀ {i j : Nat}, (classes.map Class.id)[i]? = some x →
        (classes.map Class.id)[j]? = some y → j < i := by
    intro x y hxy
    induction hxy with
    | single hxy => exact h.lt_of_hasParent hnodup hxy
    | @tail y z _ hyz ih =>
      intro i k hi hk
      obtain ⟨c, hc, hcy, -⟩ := hyz.1
      obtain ⟨j, hj⟩ := List.getElem?_of_mem (List.mem_map.2 ⟨c, hc, hcy⟩)
      exact Nat.lt_trans (h.lt_of_hasParent hnodup hyz hj hk) (ih hi hj)
  intro hid
  obtain ⟨y, ⟨⟨c, hc, hcid, -⟩, -⟩, -⟩ := Relation.TransGen.head'_iff.1 hid
  obtain ⟨i, hi⟩ := List.getElem?_of_mem (List.mem_map.2 ⟨c, hc, hcid⟩)
  exact absurd (hlt hid hi hi) (Nat.lt_irrefl i)

theorem perm_parentsFirst_of_order {out : List Class} (h : order classes = .ok out) :
    out.Perm classes ∧ ParentsFirst (classes.map Class.id) out := by
  rcases order_cases classes with ⟨out', hout', hperm, hfirst⟩ | ⟨cycle, hcycle, -⟩
  · rw [h] at hout'
    cases hout'
    exact ⟨hperm, hfirst⟩
  · rw [h] at hcycle
    cases hcycle

theorem acyclic_of_order (hnodup : (classes.map Class.id).Nodup) {out : List Class}
    (h : order classes = .ok out) (id : String) :
    ¬Relation.TransGen (HasParent classes) id id := by
  intro hid
  obtain ⟨hperm, hfirst⟩ := perm_parentsFirst_of_order h
  have hids := hperm.map Class.id
  refine ParentsFirst.acyclic (hfirst.congr fun x hx => hids.mem_iff.1 hx)
    (hids.nodup_iff.2 hnodup) id (Relation.TransGen.mono (fun x y => ?_) id id hid)
  exact HasParent.mono fun c hc => hperm.mem_iff.2 hc

theorem exists_order_of_acyclic
    (h : ∀ id, ¬Relation.TransGen (HasParent classes) id id) :
    ∃ out, order classes = .ok out := by
  rcases order_cases classes with ⟨out, hout, -, -⟩ | ⟨cycle, -, hround⟩
  · exact ⟨out, hout⟩
  · obtain ⟨x, -, hx⟩ := hround.exists_transGen
    exact absurd hx (h x)

/-- Classes are put in order without loss, each after its parents, or a cycle
among their parents is reported.  With ids that are used once, the order fails
only for classes that have none. -/
theorem order_parentsFirst_or_round (classes : List Class) :
    ((∃ out, order classes = .ok out ∧ out.Perm classes ∧
        ParentsFirst (classes.map Class.id) out) ∨
      (∃ cycle, order classes = .error (.cyclicClassHierarchy cycle) ∧
        Round (HasParent classes) cycle)) ∧
    ((classes.map Class.id).Nodup →
      ((∃ out, order classes = .ok out) ↔
        ∀ id, ¬Relation.TransGen (HasParent classes) id id)) := by
  refine ⟨order_cases classes, fun hnodup => ⟨fun hex => ?_, exists_order_of_acyclic⟩⟩
  obtain ⟨out, hout⟩ := hex
  exact acyclic_of_order hnodup hout

/-- Two classes above one and below another, in an order that has to be mended. -/
theorem acyclic_of_order_diamond :
    (["m", "a", "b", "z"] : List String).Nodup ∧
      ∀ id, ¬Relation.TransGen (HasParent
        [⟨"m", "m", ["a", "b"], [], [], "", none, .optional⟩,
          ⟨"a", "a", ["z"], [], [], "", none, .optional⟩,
          ⟨"b", "b", ["elsewhere", "z"], [], [], "", none, .optional⟩,
          ⟨"z", "z", [], [], [], "", none, .optional⟩]) id id :=
  ⟨by decide, ((order_parentsFirst_or_round _).2 (by decide)).1 ⟨_, rfl⟩⟩

end Precedence
end OntologyModel

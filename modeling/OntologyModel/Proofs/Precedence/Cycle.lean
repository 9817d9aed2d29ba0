/-
The cycle among stuck classes.

Each stuck class has a stuck parent, so a walk along stuck parents never goes
astray.  It meets no id twice before it closes, and there are only so many ids of
stuck classes, so it closes within its fuel.  What it gives is a round of the
relation `HasParent`: a way along it that ends where it began.
-/
import OntologyModel.Proofs.Ascending
import OntologyModel.Proofs.Precedence.Queue
import Mathlib.Data.List.Chain
import Mathlib.Data.List.Dedup

namespace OntologyModel

/-! ## Rounds -/

/-- A way along a relation that ends where it began and meets no entry twice
before that. -/
structure Round {α : Type} (r : α → α → Prop) (cycle : List α) : Prop where
  two_le : 2 ≤ cycle.length
  closed : cycle.head? = cycle.getLast?
  nodup : cycle.dropLast.Nodup
  linked : cycle.IsChain r

namespace Round

variable {α : Type} {r s : α → α → Prop} {cycle : List α}

theorem mono (h : Round r cycle) (hrs : ∀ x y, r x y → s x y) : Round s cycle :=
  ⟨h.two_le, h.closed, h.nodup, h.linked.imp hrs⟩

theorem transGen_of_isChain {x : α} {rest : List α} {y : α} (hrest : rest.getLast? = some y)
    (h : (x :: rest).IsChain r) : Relation.TransGen r x y := by
  induction rest generalizing x with
  | nil => exact absurd hrest (by simp)
  | cons z rest ih =>
    obtain ⟨hxz, hz⟩ := List.isChain_cons_cons.1 h
    cases rest with
    | nil =>
      cases hrest
      exact .single hxz
    | cons w rest => exact .head hxz (ih (by simpa using hrest) hz)

theorem exists_transGen (h : Round r cycle) : ∃ x ∈ cycle, Relation.TransGen r x x := by
  obtain ⟨hlen, hclosed, -, hlinked⟩ := h
  match cycle with
  | [] => exact absurd hlen (Nat.not_succ_le_zero 1)
  | [_] => exact absurd hlen (Nat.not_succ_le_self 1)
  | x :: y :: rest =>
    rw [List.getLast?_cons_cons] at hclosed
    exact ⟨x, List.mem_cons_self, transGen_of_isChain hclosed.symm hlinked⟩

end Round

namespace Precedence

/-- A class with id `x` has the parent `y`, and a class of the list has that id. -/
def HasParent (classes : List Class) (x y : String) : Prop :=
  (∃ c ∈ classes, c.id = x ∧ y ∈ c.parentIds) ∧ ∃ d ∈ classes, d.id = y

theorem HasParent.mono {classes classes' : List Class} (h : ∀ c ∈ classes, c ∈ classes')
    {x y : String} (hxy : HasParent classes x y) : HasParent classes' x y := by
  obtain ⟨⟨c, hc, hx⟩, d, hd, hy⟩ := hxy
  exact ⟨⟨c, h c hc, hx⟩, d, h d hd, hy⟩

/-! ## Stuck parents -/

theorem mem_of_least? {l : List String} {x : String} (h : least? l = some x) : x ∈ l :=
  Text.mem_ascendingTexts.1 (List.mem_of_head? h)

theorem exists_least? {l : List String} {y : String} (h : y ∈ l) : ∃ x, least? l = some x := by
  cases hl : Text.ascendingTexts l with
  | nil =>
    have hy : y ∈ Text.ascendingTexts l := Text.mem_ascendingTexts.2 h
    rw [hl] at hy
    exact absurd hy List.not_mem_nil
  | cons x rest => exact ⟨x, by rw [least?, hl, List.head?_cons]⟩

/-- The class that stands for an id is stuck itself, whatever others share the id with it. -/
theorem hasParent_of_stuckParent? {waiting : List Class} {id next : String}
    (h : stuckParent? waiting id = some next) : HasParent waiting id next := by
  rw [stuckParent?] at h
  cases hd : waiting.reverse.find? fun c => c.id = id with
  | none =>
    rw [hd] at h
    cases h
  | some d =>
    rw [hd] at h
    have hdmem : d ∈ waiting := List.mem_reverse.1 (List.mem_of_find?_eq_some hd)
    have hdid : d.id = id := by simpa using List.find?_some hd
    obtain ⟨hparent, hany⟩ := List.mem_filter.1 (mem_of_least? h)
    obtain ⟨f, hf, hfid⟩ := List.any_eq_true.1 hany
    exact ⟨⟨d, hdmem, hdid, hparent⟩, f, hf, of_decide_eq_true hfid⟩

/-- The walk can go on from the id of every stuck class. -/
theorem Stuck.exists_stuckParent {classes waiting : List Class} (h : Stuck classes waiting)
    {id : String} (hid : ∃ c ∈ waiting, c.id = id) :
    ∃ next, stuckParent? waiting id = some next := by
  obtain ⟨c, hc, rfl⟩ := hid
  have hfound : (waiting.reverse.find? fun d => d.id = c.id).isSome = true :=
    List.find?_isSome.2 ⟨c, List.mem_reverse.2 hc, decide_eq_true rfl⟩
  obtain ⟨d, hd⟩ := Option.isSome_iff_exists.1 hfound
  have hdmem : d ∈ waiting := List.mem_reverse.1 (List.mem_of_find?_eq_some hd)
  obtain ⟨p, hp, e, he, hep⟩ := h.blocked d hdmem
  have hpmem : p ∈ d.parentIds.filter fun p => waiting.any fun e => e.id = p :=
    List.mem_filter.2 ⟨hp, List.any_eq_true.2 ⟨e, he, decide_eq_true hep⟩⟩
  rw [stuckParent?, hd]
  exact exists_least? hpmem

/-! ## The walk -/

/-- The steps of the walk that do not end it, from the ids visited and the id that comes next. -/
inductive WalkStep (waiting : List Class) : List String × String → List String × String → Prop where
  | go {path : List String} {id next : String} (hid : id ∉ path)
      (hnext : stuckParent? waiting id = some next) : WalkStep waiting (path, id) (id :: path, next)

/-- Where the walk ends, and the way that it gives. -/
inductive WalkEnd (waiting : List Class) : List String × String → List String → Prop where
  | closed {path : List String} {id : String} (hid : id ∈ path) :
      WalkEnd waiting (path, id) ((path.reverse.dropWhile fun p => p != id) ++ [id])
  | astray {path : List String} {id : String} (hid : id ∉ path)
      (hnone : stuckParent? waiting id = none) : WalkEnd waiting (path, id) (id :: path).reverse

section

variable {waiting : List Class} {path : List String} {id next : String}

theorem walk_closed (hid : id ∈ path) (fuel : Nat) : walk waiting (fuel + 1) path id =
    some ((path.reverse.dropWhile fun p => p != id) ++ [id]) := by
  rw [walk, if_pos (List.contains_iff_mem.2 hid)]

theorem walk_go (hid : id ∉ path) (hnext : stuckParent? waiting id = some next) (fuel : Nat) :
    walk waiting (fuel + 1) path id = walk waiting fuel (id :: path) next := by
  rw [walk, if_neg (mt List.contains_iff_mem.1 hid), hnext]

theorem walk_astray (hid : id ∉ path) (hnone : stuckParent? waiting id = none) (fuel : Nat) :
    walk waiting (fuel + 1) path id = some (id :: path).reverse := by
  rw [walk, if_neg (mt List.contains_iff_mem.1 hid), hnone]

theorem exists_end_of_walk {fuel : Nat} {way : List String}
    (h : walk waiting fuel path id = some way) :
    ∃ t, Relation.ReflTransGen (WalkStep waiting) (path, id) t ∧ WalkEnd waiting t way := by
  induction fuel generalizing path id with
  | zero => exact absurd h (by simp [walk])
  | succ fuel ih =>
    by_cases hid : id ∈ path
    · rw [walk_closed hid] at h
      cases h
      exact ⟨_, .refl, .closed hid⟩
    · cases hnext : stuckParent? waiting id with
      | none =>
        rw [walk_astray hid hnext] at h
        cases h
        exact ⟨_, .refl, .astray hid hnext⟩
      | some next =>
        rw [walk_go hid hnext] at h
        obtain ⟨t, ht, hend⟩ := ih h
        exact ⟨t, ht.head (.go hid hnext), hend⟩

end

/-- What holds of the ids visited, the last one first, and the id that comes
next. -/
structure OnWalk (waiting : List Class) (path : List String) (id : String) : Prop where
  nodup : path.Nodup
  listed : ∀ p ∈ id :: path, ∃ d ∈ waiting, d.id = p
  linked : (path.reverse ++ [id]).IsChain (HasParent waiting)

namespace OnWalk

variable {waiting : List Class} {path : List String} {id next : String}

theorem start (h : ∃ c ∈ waiting, c.id = id) : OnWalk waiting [] id where
  nodup := List.nodup_nil
  listed := by
    intro p hp
    rw [List.mem_singleton.1 hp]
    exact h
  linked := List.isChain_singleton id

theorem step (h : OnWalk waiting path id) (hid : id ∉ path) (hnext : HasParent waiting id next) :
    OnWalk waiting (id :: path) next where
  nodup := List.nodup_cons.2 ⟨hid, h.nodup⟩
  listed := by
    intro p hp
    rcases List.mem_cons.1 hp with rfl | hp
    · exact hnext.2
    · exact h.listed p hp
  linked := by
    rw [List.reverse_cons]
    refine List.isChain_append.2 ⟨h.linked, List.isChain_singleton next, ?_⟩
    intro x hx y hy
    rw [List.getLast?_concat, Option.mem_some_iff] at hx
    rw [List.head?_singleton, Option.mem_some_iff] at hy
    exact hx ▸ hy ▸ hnext

theorem length_le (h : OnWalk waiting path id) :
    path.length ≤ (waiting.map Class.id).dedup.length := by
  refine h.nodup.length_le_of_subset fun p hp => ?_
  obtain ⟨d, hd, hdp⟩ := h.listed p (List.mem_cons_of_mem id hp)
  exact List.mem_dedup.2 (List.mem_map.2 ⟨d, hd, hdp⟩)

theorem steps {s t : List String × String} (h : OnWalk waiting s.1 s.2)
    (hsteps : Relation.ReflTransGen (WalkStep waiting) s t) : OnWalk waiting t.1 t.2 := by
  induction hsteps with
  | refl => exact h
  | tail _ hstep ih =>
    cases hstep with
    | go hid hnext => exact ih.step hid (hasParent_of_stuckParent? hnext)

end OnWalk

theorem exists_dropWhile_ne {id : String} {l : List String} (h : id ∈ l) :
    ∃ front rest, l = front ++ id :: rest ∧ (l.dropWhile fun p => p != id) = id :: rest := by
  induction l with
  | nil => exact absurd h List.not_mem_nil
  | cons a l ih =>
    by_cases ha : a = id
    · subst ha
      exact ⟨[], l, rfl, List.dropWhile_cons_of_neg (by simp)⟩
    · obtain ⟨front, rest, hl, hdrop⟩ := ih ((List.mem_cons.1 h).resolve_left (Ne.symm ha))
      refine ⟨a :: front, rest, by rw [hl, List.cons_append], ?_⟩
      rw [List.dropWhile_cons_of_pos (by simpa using ha), hdrop]

theorem OnWalk.round {waiting : List Class} {path : List String} {id : String}
    (h : OnWalk waiting path id) (hid : id ∈ path) :
    Round (HasParent waiting) ((path.reverse.dropWhile fun p => p != id) ++ [id]) := by
  obtain ⟨front, rest, hpath, hdrop⟩ := exists_dropWhile_ne (List.mem_reverse.2 hid)
  have hlinked := h.linked
  rw [hpath, List.append_assoc] at hlinked
  have hnodup := (List.reverse_perm path).nodup_iff.2 h.nodup
  rw [hpath] at hnodup
  rw [hdrop]
  refine ⟨?_, ?_, ?_, hlinked.right_of_append⟩
  · rw [List.length_append, List.length_cons, List.length_singleton]
    omega
  · rw [List.getLast?_concat, List.cons_append, List.head?_cons]
  · rw [List.dropLast_concat]
    exact (List.nodup_append.1 hnodup).2.1

/-- A walk comes to an end before it has visited more ids than there are. -/
theorem OnWalk.walk_isSome {waiting : List Class} {fuel : Nat} {path : List String} {id : String}
    (hw : OnWalk waiting path id) (hf : (waiting.map Class.id).dedup.length < fuel + path.length) :
    (walk waiting fuel path id).isSome = true := by
  induction fuel generalizing path id with
  | zero =>
    have := hw.length_le
    omega
  | succ fuel ih =>
    by_cases hid : id ∈ path
    · rw [walk_closed hid, Option.isSome_some]
    · cases hnext : stuckParent? waiting id with
      | none => rw [walk_astray hid hnext, Option.isSome_some]
      | some next =>
        rw [walk_go hid hnext]
        refine ih (hw.step hid (hasParent_of_stuckParent? hnext)) ?_
        rw [List.length_cons]
        omega

/-- There are no more ids than classes. -/
theorem length_dedup_ids_le (waiting : List Class) :
    (waiting.map Class.id).dedup.length ≤ waiting.length := by
  have h := (List.dedup_sublist (waiting.map Class.id)).length_le
  rwa [List.length_map] at h

/-- A walk among stuck classes goes round within its fuel. -/
theorem Stuck.exists_walk {classes waiting : List Class} (h : Stuck classes waiting)
    {id : String} (hid : ∃ c ∈ waiting, c.id = id) :
    ∃ cycle, walk waiting (waiting.length + 1) [] id = some cycle ∧
      Round (HasParent waiting) cycle := by
  have hstart := OnWalk.start hid
  obtain ⟨cycle, hcycle⟩ := Option.isSome_iff_exists.1
    (hstart.walk_isSome (Nat.lt_succ_of_le (length_dedup_ids_le waiting)))
  obtain ⟨t, ht, hend⟩ := exists_end_of_walk hcycle
  have hwalk : OnWalk waiting t.1 t.2 := hstart.steps ht
  refine ⟨cycle, hcycle, ?_⟩
  cases hend with
  | closed hmem => exact hwalk.round hmem
  | astray hnew hnone =>
    -- Nobody goes astray among stuck classes.
    obtain ⟨next, hnext⟩ := h.exists_stuckParent (hwalk.listed _ List.mem_cons_self)
    rw [hnone] at hnext
    cases hnext

theorem Stuck.round_findCycle {classes waiting : List Class} (h : Stuck classes waiting) :
    Round (HasParent classes) (findCycle waiting) := by
  obtain ⟨c, hc⟩ := List.exists_mem_of_ne_nil _ h.nonempty
  obtain ⟨id, hid⟩ := exists_least? (List.mem_map_of_mem (f := Class.id) hc)
  obtain ⟨d, hd, hdid⟩ := List.mem_map.1 (mem_of_least? hid)
  obtain ⟨cycle, hcycle, hround⟩ := h.exists_walk ⟨d, hd, hdid⟩
  have hfound : findCycle waiting = cycle := by
    rw [findCycle, hid]
    show (walk waiting (waiting.length + 1) [] id).getD [] = cycle
    rw [hcycle, Option.getD_some]
  rw [hfound]
  exact hround.mono fun x y => HasParent.mono h.subset

end Precedence
end OntologyModel

/-
Passes over the queue.

A queue that starts in ascending order of id is worked on in passes.  The classes that a
pass has not come to yet stand in front of those that it put off, both in ascending order,
so that the next pass meets the classes in ascending order again.  `wait` counts the
passes for which a class is put off: it has to wait for each parent, and for one pass
more if the parent has a greater id, because then the pass meets the class first.  `InPass`
ties the queue to these numbers, and it makes the order of classes the order by wait and
then by id.
-/
import OntologyModel.Proofs.Precedence.Order
import Mathlib.Data.List.MinMax
import Mathlib.Data.List.Nodup
import Mathlib.Data.List.Perm.Basic
import Mathlib.Order.Nat

namespace OntologyModel
namespace Precedence

/-! ## Waiting -/

def greatest (l : List Nat) : Nat := l.foldr max 0

theorem le_greatest {l : List Nat} {n : Nat} (h : n ∈ l) : n ≤ greatest l :=
  List.le_max_of_le h (Nat.le_refl n)

theorem greatest_le {l : List Nat} {n : Nat} (h : ∀ m ∈ l, m ≤ n) : greatest l ≤ n :=
  List.max_le_of_forall_le l n h

def parentsIn (classes : List Class) (c : Class) : List Class :=
  classes.filter fun p => c.parentIds.contains p.id

theorem mem_parentsIn {classes : List Class} {c p : Class} :
    p ∈ parentsIn classes c ↔ p ∈ classes ∧ p.id ∈ c.parentIds := by
  rw [parentsIn, List.mem_filter, List.contains_iff_mem]

/-- Up to which pass a class waits for a parent, given the passes of all classes. -/
def waitFor (pass : Class → Nat) (c p : Class) : Nat := pass p + if c.id < p.id then 1 else 0

/-- Each class waits for its parents and no longer. -/
def Waits (classes : List Class) (pass : Class → Nat) : Prop :=
  ∀ c ∈ classes, pass c = greatest ((parentsIn classes c).map (waitFor pass c))

/-- The wait of a class, looking at ancestors of so many generations. -/
def waitWithin (classes : List Class) : Nat → Class → Nat
  | 0, _ => 0
  | n + 1, c => greatest ((parentsIn classes c).map (waitFor (waitWithin classes n) c))

/-- How many passes a class is put off. -/
def wait (classes : List Class) (c : Class) : Nat := waitWithin classes classes.length c

section

variable {classes : List Class}

theorem Waits.perm {pass : Class → Nat} (h : Waits classes pass) {classes' : List Class}
    (hperm : classes'.Perm classes) : Waits classes' pass := by
  intro c hc
  rw [h c (hperm.mem_iff.1 hc)]
  exact ((hperm.symm.filter _).map _).foldr_eq 0

theorem eq_of_id (hnodup : (classes.map Class.id).Nodup) {c d : Class} (hc : c ∈ classes)
    (hd : d ∈ classes) (hid : c.id = d.id) : c = d :=
  List.inj_on_of_nodup_map hnodup hc hd hid

/-- A class has no more generations of ancestors than there are classes in front of it
in an order with parents first. -/
theorem waitWithin_eq (hnodup : (classes.map Class.id).Nodup) {out : List Class}
    (hperm : out.Perm classes) (hfirst : ParentsFirst (classes.map Class.id) out) {i : Nat}
    {c : Class} (hc : out[i]? = some c) {n m : Nat} (hn : i < n) (hm : i < m) :
    waitWithin classes n c = waitWithin classes m c := by
  -- The induction is on the place in the order: the parents stand at earlier ones.
  induction i using Nat.strong_induction_on generalizing c n m with
  | _ i ih =>
    obtain ⟨n, rfl⟩ := Nat.exists_eq_succ_of_ne_zero (Nat.ne_zero_of_lt hn)
    obtain ⟨m, rfl⟩ := Nat.exists_eq_succ_of_ne_zero (Nat.ne_zero_of_lt hm)
    refine congrArg greatest (List.map_congr_left fun p hp => congrArg (· + _) ?_)
    obtain ⟨hmem, hparent⟩ := mem_parentsIn.1 hp
    obtain ⟨j, hj, d, hd, hid⟩ := hfirst i c hc p.id hparent (List.mem_map_of_mem hmem)
    have hdp : d = p :=
      eq_of_id hnodup (hperm.mem_iff.1 (List.mem_of_getElem? hd)) hmem hid
    subst hdp
    exact ih j hj hd (by omega) (by omega)

theorem waits_wait (hnodup : (classes.map Class.id).Nodup)
    (hacyclic : ∀ id, ¬Relation.TransGen (HasParent classes) id id) :
    Waits classes (wait classes) := by
  intro c hc
  obtain ⟨out, hout⟩ := exists_order_of_acyclic hacyclic
  obtain ⟨hperm, hfirst⟩ := perm_parentsFirst_of_order hout
  obtain ⟨i, hi⟩ := List.getElem?_of_mem (hperm.mem_iff.2 hc)
  have hlt : i < classes.length := hperm.length_eq ▸ (List.getElem?_eq_some_iff.1 hi).1
  -- One generation more makes no difference, and then the equation is the definition.
  exact waitWithin_eq hnodup hperm hfirst hi hlt (Nat.lt_succ_of_lt hlt)

end

/-! ## Passes -/

def Earlier (pass : Class → Nat) (a b : Class) : Prop :=
  pass a < pass b ∨ pass a = pass b ∧ a.id < b.id

/-- What holds of a queue in the midst of the pass `n`: `fresh` is what the pass has not
come to yet, and `off` is what it put off. -/
structure InPass (classes : List Class) (pass : Class → Nat) (n : Nat) (fresh off : List Class)
    (q : Queue) : Prop where
  waiting : q.waiting = fresh ++ off
  perm : (q.placed ++ q.waiting).Perm classes
  ascending : (off ++ fresh).Pairwise fun a b => a.id < b.id
  le_fresh : ∀ c ∈ fresh, n ≤ pass c
  lt_off : ∀ c ∈ off, n < pass c
  /-- The pass places what waits for it, and has come past it. -/
  placed : ∀ c ∈ q.placed, pass c < n ∨ pass c = n ∧ ∀ d ∈ fresh, c.id < d.id
  sorted : q.placed.reverse.Pairwise (Earlier pass)

namespace InPass

variable {known : List String} {classes fresh off rest placed : List Class}
  {pass : Class → Nat} {n stalled stalled' : Nat} {c p : Class} {q q' : Queue}

/-- The end of a pass is the start of the next. -/
theorem turn (h : InPass classes pass n [] off q) : InPass classes pass (n + 1) off [] q where
  waiting := h.waiting.trans (List.append_nil off).symm
  perm := h.perm
  ascending := by simpa using h.ascending
  le_fresh := h.lt_off
  lt_off := fun _ hc => absurd hc List.not_mem_nil
  placed d hd := .inl (Nat.lt_succ_iff.2 ((h.placed d hd).elim Nat.le_of_lt fun hd => hd.1.le))
  sorted := h.sorted

theorem mem_of_fresh (h : InPass classes pass n fresh off q) (hc : c ∈ fresh) : c ∈ classes :=
  h.perm.mem_iff.1 (List.mem_append_right _ (h.waiting ▸ List.mem_append_left off hc))

/-- A pass meets the classes in ascending order. -/
theorem lt_of_mem_fresh (h : InPass classes pass n (c :: fresh) off q) :
    ∀ d ∈ fresh, c.id < d.id :=
  (List.pairwise_cons.1 (List.pairwise_append.1 h.ascending).2.1).1

theorem placed_of_cons (h : InPass classes pass n (c :: fresh) off q) :
    ∀ d ∈ q.placed, pass d < n ∨ pass d = n ∧ ∀ e ∈ fresh, d.id < e.id := fun d hd =>
  (h.placed d hd).imp_right fun hd => ⟨hd.1, fun e he => hd.2 e (List.mem_cons_of_mem c he)⟩

theorem eq_of_ready (h : InPass classes pass n (c :: fresh) off q) (hwaits : Waits classes pass)
    (hnodup : (classes.map Class.id).Nodup)
    (hready : ready (classes.map Class.id) q.placed c = true) : pass c = n := by
  refine Nat.le_antisymm ?_ (h.le_fresh c List.mem_cons_self)
  rw [hwaits c (h.mem_of_fresh List.mem_cons_self)]
  refine greatest_le fun k hk => ?_
  obtain ⟨p, hp, rfl⟩ := List.mem_map.1 hk
  obtain ⟨hmem, hparent⟩ := mem_parentsIn.1 hp
  obtain ⟨d, hd, hid⟩ := ready_iff.1 hready p.id hparent (List.mem_map_of_mem hmem)
  have hdp : d = p :=
    eq_of_id hnodup (h.perm.mem_iff.1 (List.mem_append_left _ hd)) hmem hid
  subst hdp
  rw [waitFor]
  rcases h.placed d hd with hlt | ⟨heq, hbefore⟩
  · split <;> omega
  · rw [if_neg (String.lt_asymm (hbefore c List.mem_cons_self)), heq, Nat.add_zero]

theorem lt_of_not_ready (h : InPass classes pass n (c :: fresh) off q)
    (hwaits : Waits classes pass) (hirrefl : ∀ c ∈ classes, c.id ∉ c.parentIds)
    (hready : ready (classes.map Class.id) q.placed c = false) : n < pass c := by
  have hc := h.mem_of_fresh (List.mem_cons_self (a := c))
  obtain ⟨id, hparent, hknown, hunplaced⟩ := exists_unsettled hready
  obtain ⟨p, hmem, rfl⟩ := List.mem_map.1 hknown
  have hle : waitFor pass c p ≤ pass c := by
    rw [hwaits c hc]
    exact le_greatest (List.mem_map_of_mem (mem_parentsIn.2 ⟨hmem, hparent⟩))
  rw [waitFor] at hle
  have hwaiting : p ∈ c :: fresh ++ off := by
    rw [← h.waiting]
    exact (List.mem_append.1 (h.perm.mem_iff.2 hmem)).resolve_left fun hp => hunplaced p hp rfl
  rcases List.mem_append.1 hwaiting with hp | hp
  · rcases List.mem_cons.1 hp with rfl | hp
    · exact absurd hparent (hirrefl p hc)
    · -- The pass meets the parent after the class.
      have := h.le_fresh p (List.mem_cons_of_mem c hp)
      rw [if_pos (h.lt_of_mem_fresh p hp)] at hle
      omega
  · have := h.lt_off p hp
    omega

theorem place (h : InPass classes pass n (c :: fresh) off ⟨c :: rest, placed, stalled⟩)
    (hpass : pass c = n) : InPass classes pass n fresh off ⟨rest, c :: placed, stalled'⟩ where
  waiting := (List.cons.inj h.waiting).2
  perm := List.perm_middle.symm.trans h.perm
  ascending := h.ascending.sublist ((List.sublist_cons_self c fresh).append_left off)
  le_fresh d hd := h.le_fresh d (List.mem_cons_of_mem c hd)
  lt_off := h.lt_off
  placed := by
    intro d hd
    rcases List.mem_cons.1 hd with rfl | hd
    · exact .inr ⟨hpass, h.lt_of_mem_fresh⟩
    · exact h.placed_of_cons d hd
  sorted := by
    rw [List.reverse_cons]
    refine List.pairwise_append.2 ⟨h.sorted, List.pairwise_singleton _ c, fun d hd e he => ?_⟩
    rw [List.mem_singleton.1 he]
    rcases h.placed d (List.mem_reverse.1 hd) with hlt | ⟨heq, hbefore⟩
    · exact .inl (hpass ▸ hlt)
    · exact .inr ⟨heq.trans hpass.symm, hbefore c List.mem_cons_self⟩

theorem putOff (h : InPass classes pass n (c :: fresh) off ⟨c :: rest, placed, stalled⟩)
    (hpass : n < pass c) :
    InPass classes pass n fresh (off ++ [c]) ⟨rest ++ [c], placed, stalled'⟩ where
  waiting := by
    show rest ++ [c] = fresh ++ (off ++ [c])
    rw [(List.cons.inj h.waiting).2]
    exact List.append_assoc fresh off [c]
  perm := ((List.perm_append_singleton c rest).append_left placed).trans h.perm
  ascending := by
    rw [List.append_assoc]
    exact h.ascending
  le_fresh d hd := h.le_fresh d (List.mem_cons_of_mem c hd)
  lt_off := by
    intro d hd
    rcases List.mem_append.1 hd with hd | hd
    · exact h.lt_off d hd
    · exact List.mem_singleton.1 hd ▸ hpass
  placed := h.placed_of_cons
  sorted := h.sorted

/-- A step that finds the class in front not examined yet stays in the pass. -/
theorem step (h : InPass classes pass n (c :: fresh) off q) (hwaits : Waits classes pass)
    (hnodup : (classes.map Class.id).Nodup) (hirrefl : ∀ c ∈ classes, c.id ∉ c.parentIds)
    (hstep : Step (classes.map Class.id) q q') : ∃ off, InPass classes pass n fresh off q' := by
  cases hstep with
  | @place d rest placed stalled hready =>
    obtain ⟨rfl, -⟩ := List.cons.inj h.waiting
    exact ⟨off, h.place (h.eq_of_ready hwaits hnodup hready)⟩
  | @putOff d rest placed stalled hready hs =>
    obtain ⟨rfl, -⟩ := List.cons.inj h.waiting
    exact ⟨off ++ [d], h.putOff (h.lt_of_not_ready hwaits hirrefl hready)⟩

end InPass

def Passing (classes : List Class) (pass : Class → Nat) (q : Queue) : Prop :=
  ∃ n fresh off, InPass classes pass n fresh off q

namespace Passing

variable {classes : List Class} {pass : Class → Nat} {q q' : Queue}

theorem start (h : classes.Pairwise fun a b => a.id < b.id) :
    Passing classes pass ⟨classes, [], 0⟩ := by
  refine ⟨0, classes, [], ?_⟩
  exact {
    waiting := (List.append_nil classes).symm
    perm := .refl classes
    ascending := h
    le_fresh := fun _ _ => Nat.zero_le _
    lt_off := fun _ hc => absurd hc List.not_mem_nil
    placed := fun _ hc => absurd hc List.not_mem_nil
    sorted := .nil }

theorem step (h : Passing classes pass q) (hwaits : Waits classes pass)
    (hnodup : (classes.map Class.id).Nodup) (hirrefl : ∀ c ∈ classes, c.id ∉ c.parentIds)
    (hstep : Step (classes.map Class.id) q q') : Passing classes pass q' := by
  obtain ⟨n, fresh, off, h⟩ := h
  cases fresh with
  | cons c fresh =>
    obtain ⟨off', h'⟩ := h.step hwaits hnodup hirrefl hstep
    exact ⟨n, fresh, off', h'⟩
  | nil =>
    cases off with
    | nil =>
      have hempty := h.waiting
      cases hstep <;> cases hempty
    | cons c off =>
      -- The pass is over, and the next one begins with what was put off.
      obtain ⟨off', h'⟩ := h.turn.step hwaits hnodup hirrefl hstep
      exact ⟨n + 1, off, off', h'⟩

theorem steps (h : Passing classes pass q) (hwaits : Waits classes pass)
    (hnodup : (classes.map Class.id).Nodup) (hirrefl : ∀ c ∈ classes, c.id ∉ c.parentIds)
    (hsteps : Relation.ReflTransGen (Step (classes.map Class.id)) q q') :
    Passing classes pass q' := by
  induction hsteps with
  | refl => exact h
  | tail _ hstep ih => exact ih.step hwaits hnodup hirrefl hstep

end Passing

/-! ## The order -/

section

variable {classes classes' out : List Class}

/-- An order that was found is what the work on the queue placed. -/
theorem exists_steps_of_order (h : order classes = .ok out) :
    ∃ stalled, Relation.ReflTransGen (Step ((Text.sortStable idBefore classes).map Class.id))
      ⟨Text.sortStable idBefore classes, [], 0⟩ ⟨[], out.reverse, stalled⟩ := by
  obtain ⟨o, ho⟩ :=
    Option.isSome_iff_exists.1 (work_start_isSome (Text.sortStable idBefore classes))
  obtain ⟨q, hsteps, hfinal⟩ := exists_final_of_work ho
  rw [order, ho] at h
  cases hfinal with
  | @placed placed stalled =>
    cases h
    exact ⟨stalled, by rwa [List.reverse_reverse]⟩
  | stuck _ _ => cases h

theorem sortStable_idBefore_congr (hnodup : (classes.map Class.id).Nodup)
    (hperm : classes'.Perm classes) :
    Text.sortStable idBefore classes' = Text.sortStable idBefore classes := by
  refine Text.sortStable_eq_of_perm (Text.strictOrder_before.ranking Class.id) hperm ?_
  intro a ha b hb hab hba
  exact eq_of_id hnodup (hperm.mem_iff.1 ha) (hperm.mem_iff.1 hb)
    (Text.strictOrder_before.connected hab hba)

theorem order_congr (hnodup : (classes.map Class.id).Nodup) (hperm : classes'.Perm classes) :
    order classes' = order classes := by
  rw [order, order, sortStable_idBefore_congr hnodup hperm]

theorem sorted_of_order (hnodup : (classes.map Class.id).Nodup) {pass : Class → Nat}
    (hwaits : Waits classes pass) (hout : order classes = .ok out) :
    out.Pairwise (Earlier pass) := by
  have hsorted : (Text.sortStable idBefore classes).Perm classes := Text.perm_sortStable _ _
  have hascending : (Text.sortStable idBefore classes).Pairwise fun a b => a.id < b.id :=
    List.pairwise_map.1 (Text.pairwise_lt_sortStable Class.id hnodup)
  have hirrefl : ∀ c ∈ Text.sortStable idBefore classes, c.id ∉ c.parentIds := by
    intro c hc hparent
    have hc' := hsorted.mem_iff.1 hc
    exact acyclic_of_order hnodup hout c.id
      (.single ⟨⟨c, hc', rfl, hparent⟩, c, hc', rfl⟩)
  obtain ⟨stalled, hsteps⟩ := exists_steps_of_order hout
  obtain ⟨n, fresh, off, h⟩ := (Passing.start hascending).steps (hwaits.perm hsorted)
    ((hsorted.map Class.id).nodup_iff.2 hnodup) hirrefl hsteps
  exact List.reverse_reverse out ▸ h.sorted

/-- With ids that are used once, classes without a cycle are put in order by their wait and
then by id, and the order in which they were given never matters, nor does it for the cycle
that is reported. -/
theorem order_by_wait (hnodup : (classes.map Class.id).Nodup) :
    ((∀ id, ¬Relation.TransGen (HasParent classes) id id) →
      Waits classes (wait classes) ∧
        ∃ out, order classes = .ok out ∧ out.Perm classes ∧
          out.Pairwise (Earlier (wait classes))) ∧
    ∀ classes' : List Class, classes'.Perm classes → order classes' = order classes := by
  refine ⟨fun hacyclic => ?_, fun classes' hperm => order_congr hnodup hperm⟩
  have hwaits := waits_wait hnodup hacyclic
  obtain ⟨out, hout⟩ := exists_order_of_acyclic hacyclic
  exact ⟨hwaits, out, hout, (perm_parentsFirst_of_order hout).1,
    sorted_of_order hnodup hwaits hout⟩

end

/-- A class that waits for two passes, because its parent has to wait for one. -/
def relay : List Class :=
  [⟨"d", "d", ["c"], [], [], "", none, .optional⟩,
    ⟨"a", "a", ["b", "elsewhere", "c"], [], [], "", none, .optional⟩,
    ⟨"c", "c", [], [], [], "", none, .optional⟩,
    ⟨"b", "b", ["d"], [], [], "", none, .optional⟩]

theorem order_by_wait_relay :
    (relay.map Class.id).Nodup ∧ (∀ id, ¬Relation.TransGen (HasParent relay) id id) ∧
      relay.map (wait relay) = [0, 2, 0, 1] ∧
      (Waits relay (wait relay) ∧ ∃ out, order relay = .ok out ∧ out.Perm relay ∧
        out.Pairwise (Earlier (wait relay))) ∧
      order relay.reverse = order relay := by
  have hnodup : (relay.map Class.id).Nodup := by decide
  have hacyclic : ∀ id, ¬Relation.TransGen (HasParent relay) id id :=
    acyclic_of_order hnodup rfl
  exact ⟨hnodup, hacyclic, by decide, (order_by_wait hnodup).1 hacyclic,
    (order_by_wait hnodup).2 relay.reverse (List.reverse_perm relay)⟩

end Precedence
end OntologyModel

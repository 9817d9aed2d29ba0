/-
The work on a queue of classes.

`work` is a run of steps that each place the class in front or put it off, up to a
queue on which the work ends.  Two facts about a queue carry every statement here.
`Sound` says where the classes of the queue come from: those placed stand after
their parents, and those put off since the last placement are held back by a
parent that is not placed.  `stepsLeft` bounds the steps that remain, and
`enoughSteps` is its value at the start.
-/
import OntologyModel.Model.Precedence
import Mathlib.Logic.Relation

namespace OntologyModel
namespace Precedence

/-! ## Steps -/

inductive Step (known : List String) : Queue → Queue → Prop where
  | place {c : Class} {rest placed : List Class} {stalled : Nat}
      (h : ready known placed c = true) :
      Step known ⟨c :: rest, placed, stalled⟩ ⟨rest, c :: placed, 0⟩
  | putOff {c : Class} {rest placed : List Class} {stalled : Nat}
      (h : ready known placed c = false) (hs : stalled < rest.length) :
      Step known ⟨c :: rest, placed, stalled⟩ ⟨rest ++ [c], placed, stalled + 1⟩

inductive Final (known : List String) : Queue → Outcome → Prop where
  | placed {placed : List Class} {stalled : Nat} :
      Final known ⟨[], placed, stalled⟩ (.placed placed.reverse)
  | stuck {c : Class} {rest placed : List Class} {stalled : Nat}
      (h : ready known placed c = false) (hs : rest.length ≤ stalled) :
      Final known ⟨c :: rest, placed, stalled⟩ (.stuck (rest ++ [c]))

theorem work_nil (known : List String) (fuel : Nat) (placed : List Class) (stalled : Nat) :
    work known fuel ⟨[], placed, stalled⟩ = some (.placed placed.reverse) := by
  cases fuel <;> rfl

theorem work_place {known : List String} {c : Class} {rest placed : List Class}
    (h : ready known placed c = true) (fuel stalled : Nat) :
    work known (fuel + 1) ⟨c :: rest, placed, stalled⟩ =
      work known fuel ⟨rest, c :: placed, 0⟩ := by
  rw [work, if_pos h]

theorem work_putOff {known : List String} {c : Class} {rest placed : List Class} {stalled : Nat}
    (h : ready known placed c = false) (hs : stalled < rest.length) (fuel : Nat) :
    work known (fuel + 1) ⟨c :: rest, placed, stalled⟩ =
      work known fuel ⟨rest ++ [c], placed, stalled + 1⟩ := by
  have hlen : ¬(rest ++ [c]).length ≤ stalled + 1 := by
    rw [List.length_append, List.length_singleton]
    omega
  rw [work, if_neg (Bool.eq_false_iff.1 h)]
  exact if_neg hlen

theorem work_stuck {known : List String} {c : Class} {rest placed : List Class} {stalled : Nat}
    (h : ready known placed c = false) (hs : rest.length ≤ stalled) (fuel : Nat) :
    work known (fuel + 1) ⟨c :: rest, placed, stalled⟩ = some (.stuck (rest ++ [c])) := by
  have hlen : (rest ++ [c]).length ≤ stalled + 1 := by
    rw [List.length_append, List.length_singleton]
    omega
  rw [work, if_neg (Bool.eq_false_iff.1 h)]
  exact if_pos hlen

theorem exists_final_of_work {known : List String} {fuel : Nat} {q : Queue} {o : Outcome}
    (h : work known fuel q = some o) :
    ∃ q', Relation.ReflTransGen (Step known) q q' ∧ Final known q' o := by
  induction fuel generalizing q with
  | zero =>
    obtain ⟨waiting, placed, stalled⟩ := q
    cases waiting with
    | nil =>
      rw [work_nil] at h
      cases h
      exact ⟨_, .refl, .placed⟩
    | cons c rest => exact absurd h (by simp [work])
  | succ fuel ih =>
    obtain ⟨waiting, placed, stalled⟩ := q
    cases waiting with
    | nil =>
      rw [work_nil] at h
      cases h
      exact ⟨_, .refl, .placed⟩
    | cons c rest =>
      cases hc : ready known placed c with
      | true =>
        rw [work_place hc] at h
        obtain ⟨q', hq', ho⟩ := ih h
        exact ⟨q', hq'.head (.place hc), ho⟩
      | false =>
        rcases Nat.lt_or_ge stalled rest.length with hs | hs
        · rw [work_putOff hc hs] at h
          obtain ⟨q', hq', ho⟩ := ih h
          exact ⟨q', hq'.head (.putOff hc hs), ho⟩
        · rw [work_stuck hc hs] at h
          cases h
          exact ⟨_, .refl, .stuck hc hs⟩

/-! ## The number of steps -/

/-- How many steps a queue takes at most: the class in front is placed after one
round, and then the shorter queue starts afresh. -/
def Queue.stepsLeft (q : Queue) : Nat :=
  enoughSteps (q.waiting.length - 1) + (q.waiting.length - q.stalled)

theorem enoughSteps_succ (n : Nat) : enoughSteps (n + 1) = enoughSteps n + (n + 1) := by
  have h : (n + 1) * (n + 1 + 1) = n * (n + 1) + (n + 1) * 2 := by
    rw [Nat.mul_comm n, ← Nat.mul_add]
  rw [enoughSteps, h, Nat.add_mul_div_right _ _ (by decide), enoughSteps]

/-- A queue whose classes are not all put off yet comes to an end within the
steps left to it. -/
theorem work_isSome {known : List String} {fuel : Nat} {q : Queue}
    (hs : q.waiting = [] ∨ q.stalled < q.waiting.length) (hf : q.stepsLeft ≤ fuel) :
    (work known fuel q).isSome = true := by
  induction fuel generalizing q with
  | zero =>
    obtain ⟨waiting, placed, stalled⟩ := q
    cases waiting with
    | nil => rfl
    | cons c rest =>
      have hlt : stalled < rest.length + 1 := by simpa using hs
      simp only [Queue.stepsLeft, List.length_cons] at hf
      omega
  | succ fuel ih =>
    obtain ⟨waiting, placed, stalled⟩ := q
    cases waiting with
    | nil => rw [work_nil, Option.isSome_some]
    | cons c rest =>
      have hlt : stalled < rest.length + 1 := by simpa using hs
      simp only [Queue.stepsLeft, List.length_cons, Nat.add_sub_cancel] at hf
      cases hc : ready known placed c with
      | true =>
        rw [work_place hc]
        refine ih ?_ ?_
        · cases rest with
          | nil => exact .inl rfl
          | cons d rest => exact .inr (Nat.zero_lt_succ _)
        · -- The shorter queue starts afresh, and that is what `enoughSteps` counts.
          show enoughSteps (rest.length - 1) + rest.length ≤ fuel
          cases hn : rest.length with
          | zero => exact Nat.zero_le _
          | succ n =>
            rw [hn, enoughSteps_succ] at hf
            rw [Nat.add_sub_cancel]
            omega
      | false =>
        rcases Nat.lt_or_ge stalled rest.length with hs' | hs'
        · rw [work_putOff hc hs']
          refine ih (.inr ?_) ?_
          · show stalled + 1 < (rest ++ [c]).length
            rw [List.length_append, List.length_singleton]
            omega
          · simp only [Queue.stepsLeft, List.length_append, List.length_singleton,
              Nat.add_sub_cancel]
            omega
        · rw [work_stuck hc hs', Option.isSome_some]

/-- The steps that `order` allows are enough. -/
theorem work_start_isSome (classes : List Class) :
    (work (classes.map Class.id) (enoughSteps classes.length) ⟨classes, [], 0⟩).isSome = true := by
  cases classes with
  | nil => rfl
  | cons c rest =>
    refine work_isSome (.inr (Nat.zero_lt_succ _)) ?_
    show enoughSteps rest.length + (rest.length + 1) ≤ enoughSteps (rest.length + 1)
    exact Nat.le_of_eq (enoughSteps_succ rest.length).symm

/-! ## What a queue says about its classes -/

theorem settled_iff {known : List String} {placed : List Class} {p : String} :
    settled known placed p = true ↔ (∃ d ∈ placed, d.id = p) ∨ p ∉ known := by
  simp only [settled, Bool.or_eq_true, Bool.not_eq_true', List.any_eq_true, decide_eq_true_eq,
    List.contains_eq_mem, decide_eq_false_iff_not]

/-- A class can be placed once all of its known parents are. -/
theorem ready_iff {known : List String} {placed : List Class} {c : Class} :
    ready known placed c = true ↔ ∀ p ∈ c.parentIds, p ∈ known → ∃ d ∈ placed, d.id = p := by
  rw [ready, List.all_eq_true]
  refine forall₂_congr fun p _ => ?_
  rw [settled_iff]
  exact ⟨fun h hk => h.resolve_right (not_not_intro hk),
    fun h => (Decidable.em (p ∈ known)).imp h id⟩

theorem exists_unsettled {known : List String} {placed : List Class} {c : Class}
    (h : ready known placed c = false) :
    ∃ p ∈ c.parentIds, p ∈ known ∧ ∀ d ∈ placed, d.id ≠ p := by
  rw [ready, List.all_eq_false] at h
  obtain ⟨p, hp, hno⟩ := h
  rw [settled_iff, not_or] at hno
  exact ⟨p, hp, Decidable.not_not.1 hno.2, fun d hd e => hno.1 ⟨d, hd, e⟩⟩

/-- Each class of a list stands after a class of every known id among its
parents. -/
def ParentsFirst (known : List String) (classes : List Class) : Prop :=
  ∀ (i : Nat) (c : Class), classes[i]? = some c → ∀ p ∈ c.parentIds, p ∈ known →
    ∃ j < i, ∃ d : Class, classes[j]? = some d ∧ d.id = p

theorem parentsFirst_nil (known : List String) : ParentsFirst known [] :=
  fun _ _ h => absurd h (by simp)

theorem ParentsFirst.concat {known : List String} {classes : List Class} {c : Class}
    (h : ParentsFirst known classes)
    (hc : ∀ p ∈ c.parentIds, p ∈ known → ∃ d ∈ classes, d.id = p) :
    ParentsFirst known (classes ++ [c]) := by
  intro i d hd p hp hk
  rcases Nat.lt_trichotomy i classes.length with hi | hi | hi
  · rw [List.getElem?_append_left hi] at hd
    obtain ⟨j, hj, e, he, hid⟩ := h i d hd p hp hk
    exact ⟨j, hj, e, by rw [List.getElem?_append_left (Nat.lt_trans hj hi)]; exact he, hid⟩
  · subst hi
    rw [List.getElem?_concat_length] at hd
    cases hd
    obtain ⟨e, he, hid⟩ := hc p hp hk
    obtain ⟨j, hj⟩ := List.getElem?_of_mem he
    have hlt : j < classes.length := (List.getElem?_eq_some_iff.1 hj).1
    exact ⟨j, hlt, e, by rw [List.getElem?_append_left hlt]; exact hj, hid⟩
  · rw [List.getElem?_eq_none (by rw [List.length_append, List.length_singleton]; omega)] at hd
    exact absurd hd (by simp)

/-- What holds of a queue at every moment of the work on `classes`. -/
structure Sound (classes : List Class) (q : Queue) : Prop where
  /-- No class is lost, and none is changed or added. -/
  perm : (q.placed ++ q.waiting).Perm classes
  parentsFirst : ParentsFirst (classes.map Class.id) q.placed.reverse
  /-- The classes at the back, as many as were put off, cannot be placed. -/
  putOff : ∃ fresh off, q.waiting = fresh ++ off ∧ off.length = q.stalled ∧
    ∀ c ∈ off, ready (classes.map Class.id) q.placed c = false

namespace Sound

variable {classes : List Class} {q q' : Queue}

theorem start (classes : List Class) : Sound classes ⟨classes, [], 0⟩ where
  perm := .refl _
  parentsFirst := parentsFirst_nil _
  putOff := ⟨classes, [], (List.append_nil _).symm, rfl, fun _ h => absurd h List.not_mem_nil⟩

theorem step (h : Sound classes q) (hstep : Step (classes.map Class.id) q q') :
    Sound classes q' := by
  cases hstep with
  | @place c rest placed stalled hc =>
    refine ⟨(List.perm_middle.symm).trans h.perm, ?_, ?_⟩
    · rw [List.reverse_cons]
      refine h.parentsFirst.concat fun p hp hk => ?_
      obtain ⟨d, hd, hid⟩ := ready_iff.1 hc p hp hk
      exact ⟨d, List.mem_reverse.2 hd, hid⟩
    · exact ⟨rest, [], (List.append_nil _).symm, rfl, fun _ h => absurd h List.not_mem_nil⟩
  | @putOff c rest placed stalled hc hs =>
    refine ⟨?_, h.parentsFirst, ?_⟩
    · exact (((List.perm_append_singleton c rest)).append_left placed).trans h.perm
    · obtain ⟨fresh, off, hsplit, hlen, hoff⟩ := h.putOff
      cases fresh with
      | nil =>
        -- Then every class was put off, and `stalled` would be larger.
        have : (c :: rest).length = off.length := congrArg List.length hsplit
        rw [List.length_cons] at this
        change off.length = stalled at hlen
        omega
      | cons a fresh =>
        obtain ⟨rfl, hrest⟩ : c = a ∧ rest = fresh ++ off := List.cons.inj hsplit
        refine ⟨fresh, off ++ [c], ?_, ?_, ?_⟩
        · show rest ++ [c] = fresh ++ (off ++ [c])
          rw [hrest, List.append_assoc]
        · rw [List.length_append, List.length_singleton, hlen]
        · intro d hd
          rcases List.mem_append.1 hd with hd | hd
          · exact hoff d hd
          · rw [List.mem_singleton.1 hd]
            exact hc

theorem steps (h : Sound classes q)
    (hsteps : Relation.ReflTransGen (Step (classes.map Class.id)) q q') : Sound classes q' := by
  induction hsteps with
  | refl => exact h
  | tail _ hstep ih => exact ih.step hstep

end Sound

/-- Classes that wait for each other: each has a parent among them. -/
structure Stuck (classes stuck : List Class) : Prop where
  nonempty : stuck ≠ []
  subset : ∀ c ∈ stuck, c ∈ classes
  blocked : ∀ c ∈ stuck, ∃ p ∈ c.parentIds, ∃ d ∈ stuck, d.id = p

theorem Sound.blocked {classes : List Class} {q : Queue} (h : Sound classes q) {c : Class}
    (hc : ready (classes.map Class.id) q.placed c = false) :
    ∃ p ∈ c.parentIds, ∃ d ∈ q.waiting, d.id = p := by
  obtain ⟨p, hp, hk, hno⟩ := exists_unsettled hc
  obtain ⟨d, hd, hid⟩ := List.mem_map.1 hk
  rcases List.mem_append.1 (h.perm.mem_iff.2 hd) with hd | hd
  · exact absurd hid (hno d hd)
  · exact ⟨p, hp, d, hd, hid⟩

def Outcome.Sound (classes : List Class) : Outcome → Prop
  | .placed out => out.Perm classes ∧ ParentsFirst (classes.map Class.id) out
  | .stuck waiting => Stuck classes waiting

theorem Sound.final {classes : List Class} {q : Queue} {o : Outcome} (h : Sound classes q)
    (ho : Final (classes.map Class.id) q o) : o.Sound classes := by
  cases ho with
  | @placed placed stalled =>
    refine ⟨(List.reverse_perm placed).trans ?_, h.parentsFirst⟩
    exact (List.append_nil placed) ▸ h.perm
  | @stuck c rest placed stalled hc hs =>
    have hmem : ∀ d, d ∈ rest ++ [c] ↔ d ∈ c :: rest := fun d =>
      (List.perm_append_singleton c rest).mem_iff
    -- All of `rest` was put off since the last placement.
    have hrest : ∀ d ∈ rest, ready (classes.map Class.id) placed d = false := by
      obtain ⟨fresh, off, hsplit, hlen, hoff⟩ := h.putOff
      change off.length = stalled at hlen
      have hsuffix : rest <:+ off := by
        refine List.suffix_of_suffix_length_le (List.suffix_cons c rest) ?_ (hlen ▸ hs)
        exact ⟨fresh, hsplit.symm⟩
      exact fun d hd => hoff d (hsuffix.subset hd)
    refine ⟨List.append_ne_nil_of_right_ne_nil _ (List.cons_ne_nil c []), fun d hd => ?_,
      fun d hd => ?_⟩
    · exact h.perm.mem_iff.1 (List.mem_append_right _ ((hmem d).1 hd))
    · have hd' : ready (classes.map Class.id) placed d = false := by
        rcases List.mem_cons.1 ((hmem d).1 hd) with rfl | hd
        · exact hc
        · exact hrest d hd
      obtain ⟨p, hp, e, he, hid⟩ := h.blocked hd'
      exact ⟨p, hp, e, (hmem e).2 he, hid⟩

/-- The work on a list of classes comes to an end that is sound. -/
theorem exists_work_start (classes : List Class) :
    ∃ o, work (classes.map Class.id) (enoughSteps classes.length) ⟨classes, [], 0⟩ = some o ∧
      o.Sound classes := by
  obtain ⟨o, ho⟩ := Option.isSome_iff_exists.1 (work_start_isSome classes)
  obtain ⟨q, hsteps, hfinal⟩ := exists_final_of_work ho
  exact ⟨o, ho, ((Sound.start classes).steps hsteps).final hfinal⟩

end Precedence
end OntologyModel

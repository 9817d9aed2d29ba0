/-
Why the order of classes comes to an end.

Taking the class in front makes a queue shorter or leaves one class fewer to put off, so
that the pair of these two numbers falls with every step; `stalled` stays below the length
of the queue, and that is why there is always a class to take.  A walk along stuck parents
visits different ids of stuck classes, and so no more of them than there are.  The fuel of
both loops is never used up, and more of it changes nothing.
-/
import OntologyModel.Proofs.Precedence.Order

namespace OntologyModel
namespace Precedence

/-! ## The queue -/

namespace Queue

def dequeue (known : List String) : Queue → Queue
  | ⟨[], placed, stalled⟩ => ⟨[], placed, stalled⟩
  | ⟨c :: rest, placed, stalled⟩ =>
    if ready known placed c then ⟨rest, c :: placed, 0⟩ else ⟨rest ++ [c], placed, stalled + 1⟩

/-- How many classes wait, and how many of them can be put off before the work gives up. -/
def extent (q : Queue) : Nat × Nat := (q.waiting.length, q.waiting.length - q.stalled)

variable {known : List String} {q : Queue}

theorem extent_dequeue_lt (hs : q.stalled < q.waiting.length) :
    Prod.Lex (· < ·) (· < ·) (q.dequeue known).extent q.extent := by
  obtain ⟨waiting, placed, stalled⟩ := q
  cases waiting with
  | nil => exact absurd hs (Nat.not_lt_zero _)
  | cons c rest =>
    have hlt : stalled < rest.length + 1 := hs
    cases hc : ready known placed c with
    | true =>
      rw [dequeue, if_pos hc]
      exact .left _ _ (Nat.lt_succ_self rest.length)
    | false =>
      have hlen : (rest ++ [c]).length = rest.length + 1 := by simp
      rw [dequeue, if_neg (Bool.eq_false_iff.1 hc), extent, extent]
      dsimp only
      rw [hlen, List.length_cons]
      exact .right _ (by omega)

end Queue

variable {known : List String} {q q' : Queue}

theorem Step.eq_dequeue (h : Step known q q') : q' = q.dequeue known := by
  cases h with
  | place h => rw [Queue.dequeue, if_pos h]
  | putOff h _ => rw [Queue.dequeue, if_neg (Bool.eq_false_iff.1 h)]

theorem Step.stalled_lt (h : Step known q q') (hne : q'.waiting ≠ []) :
    q'.stalled < q'.waiting.length := by
  cases h with
  | place _ => exact List.length_pos_iff.2 hne
  | @putOff c rest placed stalled _ hs =>
    show stalled + 1 < (rest ++ [c]).length
    rw [List.length_append, List.length_singleton]
    omega

/-- Of the classes in a queue that the work comes to, not all were put off in a row. -/
theorem stalled_lt_of_steps {classes : List Class}
    (h : Relation.ReflTransGen (Step known) ⟨classes, [], 0⟩ q) (hne : q.waiting ≠ []) :
    q.stalled < q.waiting.length := by
  cases h with
  | refl => exact List.length_pos_iff.2 hne
  | tail _ hstep => exact hstep.stalled_lt hne

theorem work_of_le {fuel fuel' : Nat} {o : Outcome} (h : work known fuel q = some o)
    (hle : fuel ≤ fuel') : work known fuel' q = some o := by
  induction fuel generalizing q fuel' with
  | zero =>
    obtain ⟨waiting, placed, stalled⟩ := q
    cases waiting with
    | nil => rwa [work_nil] at h ⊢
    | cons c rest => exact absurd h (by simp [work])
  | succ fuel ih =>
    obtain ⟨fuel', rfl⟩ := Nat.exists_eq_add_of_le' (Nat.le_trans (Nat.le_add_left 1 fuel) hle)
    have hle' : fuel ≤ fuel' := Nat.le_of_succ_le_succ hle
    obtain ⟨waiting, placed, stalled⟩ := q
    cases waiting with
    | nil => rwa [work_nil] at h ⊢
    | cons c rest =>
      cases hc : ready known placed c with
      | true =>
        rw [work_place hc] at h ⊢
        exact ih h hle'
      | false =>
        rcases Nat.lt_or_ge stalled rest.length with hs | hs
        · rw [work_putOff hc hs] at h ⊢
          exact ih h hle'
        · rwa [work_stuck hc hs] at h ⊢

/-- One outcome stands for all fuel that is enough. -/
theorem exists_work_of_enough (classes : List Class) :
    ∃ o, ∀ fuel, enoughSteps classes.length ≤ fuel →
      work (classes.map Class.id) fuel ⟨classes, [], 0⟩ = some o := by
  obtain ⟨o, ho⟩ := Option.isSome_iff_exists.1 (work_start_isSome classes)
  exact ⟨o, fun fuel hle => work_of_le ho hle⟩

/-! ## The walk -/

theorem walk_of_le {waiting : List Class} {fuel fuel' : Nat} {path way : List String}
    {id : String} (h : walk waiting fuel path id = some way) (hle : fuel ≤ fuel') :
    walk waiting fuel' path id = some way := by
  induction fuel generalizing path id fuel' with
  | zero => exact absurd h (by simp [walk])
  | succ fuel ih =>
    obtain ⟨fuel', rfl⟩ := Nat.exists_eq_add_of_le' (Nat.le_trans (Nat.le_add_left 1 fuel) hle)
    have hle' : fuel ≤ fuel' := Nat.le_of_succ_le_succ hle
    by_cases hid : id ∈ path
    · rwa [walk_closed hid] at h ⊢
    · cases hnext : stuckParent? waiting id with
      | none => rwa [walk_astray hid hnext] at h ⊢
      | some next =>
        rw [walk_go hid hnext] at h ⊢
        exact ih h hle'

theorem exists_walk_of_enough {waiting : List Class} {id : String}
    (hid : ∃ c ∈ waiting, c.id = id) :
    ∃ way, ∀ fuel, (waiting.map Class.id).dedup.length + 1 ≤ fuel →
      walk waiting fuel [] id = some way := by
  obtain ⟨way, hway⟩ := Option.isSome_iff_exists.1
    ((OnWalk.start hid).walk_isSome (Nat.lt_succ_self _))
  exact ⟨way, fun fuel hle => walk_of_le hway hle⟩

/-! ## Both -/

/-- The cycle that would stand for used up fuel is never reported. -/
theorem order_ne_cyclic_nil (classes : List Class) :
    order classes ≠ .error (.cyclicClassHierarchy []) := by
  intro h
  rcases order_cases classes with ⟨out, hout, -, -⟩ | ⟨cycle, hcycle, hround⟩
  · rw [h] at hout
    cases hout
  · rw [h] at hcycle
    cases hcycle
    exact absurd hround.two_le (Nat.not_succ_le_zero 1)

/-- The work on `n` classes ends within `n * (n + 1) / 2` steps, because each of them makes
fewer classes wait, or as many with fewer that can still be put off; and a walk among classes
with `m` ids ends within `m + 1` steps, because it visits different ids of theirs.  So the
order of classes never runs out of fuel. -/
theorem loops_end :
    (∀ classes : List Class,
      (∃ o, ∀ fuel, classes.length * (classes.length + 1) / 2 ≤ fuel →
        work (classes.map Class.id) fuel ⟨classes, [], 0⟩ = some o) ∧
      ∀ q, Relation.ReflTransGen (Step (classes.map Class.id)) ⟨classes, [], 0⟩ q →
        q.waiting ≠ [] → q.stalled < q.waiting.length ∧
          Prod.Lex (· < ·) (· < ·) (q.dequeue (classes.map Class.id)).extent q.extent ∧
          ∀ q', Step (classes.map Class.id) q q' → q' = q.dequeue (classes.map Class.id)) ∧
    (∀ (waiting : List Class) (id : String), (∃ c ∈ waiting, c.id = id) →
      (∃ way, ∀ fuel, (waiting.map Class.id).dedup.length + 1 ≤ fuel →
        walk waiting fuel [] id = some way) ∧
      ∀ path next, Relation.ReflTransGen (WalkStep waiting) ([], id) (path, next) →
        path.Nodup ∧ ∀ p ∈ next :: path, ∃ c ∈ waiting, c.id = p) ∧
    ∀ classes : List Class, order classes ≠ .error (.cyclicClassHierarchy []) := by
  refine ⟨fun classes => ⟨exists_work_of_enough classes, fun q hsteps hne => ?_⟩,
    fun waiting id hid => ⟨exists_walk_of_enough hid, fun path next hsteps => ?_⟩,
    order_ne_cyclic_nil⟩
  · have hlt := stalled_lt_of_steps hsteps hne
    exact ⟨hlt, Queue.extent_dequeue_lt hlt, fun q' hstep => hstep.eq_dequeue⟩
  · have hwalk : OnWalk waiting path next := (OnWalk.start hid).steps hsteps
    exact ⟨hwalk.nodup, hwalk.listed⟩

/-- A class and two others that share an id, which wait for each other. -/
def ring : List Class :=
  [⟨"z", "z", ["m"], [], [], "", none, .optional⟩,
    ⟨"m", "m", ["z"], [], [], "", none, .optional⟩,
    ⟨"m", "m", ["free", "z"], [], [], "", none, .optional⟩]

def blockedRing : List Class := ⟨"free", "free", [], [], [], "", none, .optional⟩ :: ring

theorem loops_end_ring :
    (∀ fuel, 10 ≤ fuel →
      work (blockedRing.map Class.id) fuel ⟨blockedRing, [], 0⟩ = some (.stuck ring)) ∧
    ∀ fuel, 3 ≤ fuel → walk ring fuel [] "z" = some ["z", "m", "z"] := by
  obtain ⟨⟨o, ho⟩, -⟩ := loops_end.1 blockedRing
  obtain ⟨⟨way, hway⟩, -⟩ := loops_end.2.1 ring "z" ⟨_, List.mem_cons_self, rfl⟩
  constructor
  · intro fuel hfuel
    have hten : work (blockedRing.map Class.id) 10 ⟨blockedRing, [], 0⟩ = some (.stuck ring) := by
      decide
    rw [ho fuel hfuel, ← ho 10 (Nat.le_refl 10), hten]
  · intro fuel hfuel
    have hthree : walk ring 3 [] "z" = some ["z", "m", "z"] := by decide
    rw [hway fuel hfuel, ← hway 3 (Nat.le_refl 3), hthree]

end Precedence
end OntologyModel

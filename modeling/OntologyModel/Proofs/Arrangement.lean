/-
Links and order look at ids and parents only.

Two drafts whose classes are related one by one are arranged in parallel: the same
classes are placed at the same steps, so that the arranged classes are again related
one by one, and a cycle that is found in one draft is found in the other.  All that is
asked of the relation is that related classes share id and parents, and that it holds
also after both are linked to the same classes.
-/
import OntologyModel.Model.Construction
import OntologyModel.Proofs.Links
import Mathlib.Data.List.Forall2
import Mathlib.Data.Option.Basic

namespace OntologyModel

/-! ## Parallel outcomes -/

/-- Both outcomes are errors that are related, or both are values that are. -/
inductive Parallel {ε α β : Type} (E : ε → ε → Prop) (R : α → β → Prop) :
    Except ε α → Except ε β → Prop
  | ok {a : α} {b : β} (h : R a b) : Parallel E R (.ok a) (.ok b)
  | error {e e' : ε} (h : E e e') : Parallel E R (.error e) (.error e')

namespace Parallel

variable {ε α β γ δ : Type} {E : ε → ε → Prop} {R : α → β → Prop} {S : γ → δ → Prop}
  {x : Except ε α} {y : Except ε β}

theorem bind (h : Parallel E R x y) {k : α → Except ε γ} {l : β → Except ε δ}
    (hk : ∀ a b, R a b → Parallel E S (k a) (l b)) : Parallel E S (x >>= k) (y >>= l) := by
  cases h with
  | ok hab => exact hk _ _ hab
  | error he => exact .error he

theorem mono (h : Parallel E R x y) {E' : ε → ε → Prop} {R' : α → β → Prop}
    (hE : ∀ e e', E e e' → E' e e') (hR : ∀ a b, R a b → R' a b) : Parallel E' R' x y := by
  cases h with
  | ok hab => exact .ok (hR _ _ hab)
  | error he => exact .error (hE _ _ he)

/-- Two outcomes that are parallel to a third one are parallel to each other. -/
theorem join {z : Except ε γ} {R : α → γ → Prop} {S : β → γ → Prop} (hx : Parallel Eq R x z)
    (hy : Parallel Eq S y z) : Parallel Eq (fun a b => ∃ c, R a c ∧ S b c) x y := by
  cases hx with
  | ok hac =>
    cases hy with
    | ok hbc => exact .ok ⟨_, hac, hbc⟩
  | error he =>
    cases hy with
    | error he' => exact .error (he.trans he'.symm)

/-- Where related values determine each other, one outcome is the image of the other. -/
theorem eq_map (h : Parallel Eq R x y) {f : β → α}
    (hf : ∀ a b, x = .ok a → y = .ok b → R a b → a = f b) : x = y.map f := by
  cases h with
  | ok hab => exact congrArg Except.ok (hf _ _ rfl rfl hab)
  | error he => exact congrArg Except.error he

theorem of_self {R : α → α → Prop} {x : Except ε α} (h : ∀ a, x = .ok a → R a a) :
    Parallel Eq R x x := by
  cases x with
  | ok a => exact .ok (h a rfl)
  | error e => exact .error rfl

end Parallel

/-! ## Lists in step -/

namespace Text

variable {α β : Type} {R : α → β → Prop} {lt : α → α → Bool} {lt' : β → β → Bool}

theorem forall₂_insertStable (hlt : ∀ a b a' b', R a a' → R b b' → lt a b = lt' a' b')
    {a : α} {a' : β} (ha : R a a') {l : List α} {l' : List β} (h : List.Forall₂ R l l') :
    List.Forall₂ R (insertStable lt a l) (insertStable lt' a' l') := by
  induction h with
  | nil => exact .cons ha .nil
  | @cons b b' l l' hb hl ih =>
    rw [insertStable, insertStable, hlt _ _ _ _ hb ha]
    split
    · exact .cons hb ih
    · exact .cons ha (.cons hb hl)

theorem forall₂_sortStable (hlt : ∀ a b a' b', R a a' → R b b' → lt a b = lt' a' b')
    {l : List α} {l' : List β} (h : List.Forall₂ R l l') :
    List.Forall₂ R (sortStable lt l) (sortStable lt' l') := by
  induction h with
  | nil => exact .nil
  | cons ha _ ih => exact forall₂_insertStable hlt ha ih

theorem forall₂_find? {p : α → Bool} {q : β → Bool} (hp : ∀ a b, R a b → p a = q b)
    {l : List α} {l' : List β} (h : List.Forall₂ R l l') :
    Option.Rel R (l.find? p) (l'.find? q) := by
  induction h with
  | nil => exact .none
  | @cons a b l l' hab _ ih =>
    rw [List.find?_cons, List.find?_cons, hp a b hab]
    cases q b with
    | true => exact .some hab
    | false => exact ih

end Text

/-! ## Classes in step -/

namespace Class

/-- A relation between classes of one id and the same parents that outlasts linking. -/
structure Coupling (S : Class → Class → Prop) : Prop where
  id {c c' : Class} (h : S c c') : c.id = c'.id
  parentIds {c c' : Class} (h : S c c') : c.parentIds = c'.parentIds
  link {c c' : Class} (h : S c c') (ids : List String) :
    S { c with derivedIds := ids } { c' with derivedIds := ids }

variable {S : Class → Class → Prop} {l l' : List Class}

theorem Coupling.map_id_eq (hS : Coupling S) (h : List.Forall₂ S l l') :
    l.map Class.id = l'.map Class.id := by
  induction h with
  | nil => rfl
  | cons hc _ ih => rw [List.map_cons, List.map_cons, hS.id hc, ih]

theorem Coupling.any_id_eq (hS : Coupling S) (h : List.Forall₂ S l l') (id : String) :
    (l.any fun c => c.id = id) = l'.any fun c => c.id = id := by
  have hmap (l : List Class) : (l.any fun c => c.id = id) = (l.map Class.id).any (· = id) := by
    rw [List.any_map]
    rfl
  rw [hmap, hmap, hS.map_id_eq h]

theorem Coupling.map_kinship_eq (hS : Coupling S) (h : List.Forall₂ S l l') :
    l.map kinship = l'.map kinship := by
  induction h with
  | nil => rfl
  | cons hc _ ih =>
    rw [List.map_cons, List.map_cons, ih, kinship, kinship, hS.id hc, hS.parentIds hc]

theorem Coupling.linkDerived (hS : Coupling S) (h : List.Forall₂ S l l') :
    List.Forall₂ S (Class.linkDerived l) (Class.linkDerived l') := by
  rw [List.forall₂_iff_get]
  refine ⟨by rw [length_linkDerived, length_linkDerived, h.length_eq], fun i hi hi' => ?_⟩
  have hl : i < l.length := length_linkDerived l ▸ hi
  have hl' : i < l'.length := length_linkDerived l' ▸ hi'
  have hget (m : List Class) (hm : i < m.length) (hlinked : i < (Class.linkDerived m).length) :
      (Class.linkDerived m).get ⟨i, hlinked⟩ =
        { m.get ⟨i, hm⟩ with derivedIds := derivedAt m i } := by
    refine Option.some.inj ?_
    rw [List.get_eq_getElem, ← List.getElem?_eq_getElem, getElem?_linkDerived,
      List.getElem?_eq_getElem hm]
    rfl
  rw [hget l hl, hget l' hl', derivedAt_congr (hS.map_kinship_eq h)]
  exact hS.link ((List.forall₂_iff_get.1 h).2 i hl hl') _

end Class

/-! ## Order -/

namespace Precedence

variable {S : Class → Class → Prop} {known : List String} {c c' : Class}
  {placed placed' stuck stuck' classes classes' : List Class}

inductive Outcome.InStep (S : Class → Class → Prop) : Outcome → Outcome → Prop
  | placed {l l' : List Class} (h : List.Forall₂ S l l') : InStep S (.placed l) (.placed l')
  | stuck {l l' : List Class} (h : List.Forall₂ S l l') : InStep S (.stuck l) (.stuck l')

theorem ready_eq (hS : Class.Coupling S) (hplaced : List.Forall₂ S placed placed') (hc : S c c') :
    ready known placed c = ready known placed' c' := by
  rw [ready, ready, hS.parentIds hc]
  refine List.all_congr rfl fun parent => ?_
  rw [settled, settled, hS.any_id_eq hplaced]

theorem work_inStep (hS : Class.Coupling S) (known : List String) (fuel stalled : Nat)
    {waiting waiting' : List Class} (hwaiting : List.Forall₂ S waiting waiting')
    (hplaced : List.Forall₂ S placed placed') :
    Option.Rel (Outcome.InStep S) (work known fuel ⟨waiting, placed, stalled⟩)
      (work known fuel ⟨waiting', placed', stalled⟩) := by
  induction fuel generalizing waiting waiting' placed placed' stalled with
  | zero =>
    cases hwaiting with
    | nil => exact .some (.placed (List.rel_reverse hplaced))
    | cons _ _ => exact .none
  | succ fuel ih =>
    cases hwaiting with
    | nil => exact .some (.placed (List.rel_reverse hplaced))
    | @cons c c' rest rest' hc hrest =>
      have hback : List.Forall₂ S (rest ++ [c]) (rest' ++ [c']) :=
        List.rel_append hrest (.cons hc .nil)
      -- Both queues take the same step, since only ids and parents decide on it.
      rw [work, work, ready_eq hS hplaced hc]
      dsimp only
      rw [hback.length_eq]
      split
      · exact ih 0 hrest (.cons hc hplaced)
      · split
        · exact .some (.stuck hback)
        · exact ih (stalled + 1) hback hplaced

theorem stuckParent?_eq (hS : Class.Coupling S) (h : List.Forall₂ S stuck stuck') (id : String) :
    stuckParent? stuck id = stuckParent? stuck' id := by
  have hfind : Option.Rel S (stuck.reverse.find? fun c => c.id = id)
      (stuck'.reverse.find? fun c => c.id = id) :=
    Text.forall₂_find? (fun c c' hc => by rw [hS.id hc]) (List.rel_reverse h)
  rw [stuckParent?, stuckParent?]
  generalize stuck.reverse.find? (fun c => c.id = id) = found at hfind ⊢
  generalize stuck'.reverse.find? (fun c => c.id = id) = found' at hfind ⊢
  cases hfind with
  | none => rfl
  | some hc => simp only [hS.parentIds hc, hS.any_id_eq h]

theorem walk_eq (hS : Class.Coupling S) (h : List.Forall₂ S stuck stuck') (fuel : Nat)
    (path : List String) (id : String) : walk stuck fuel path id = walk stuck' fuel path id := by
  induction fuel generalizing path id with
  | zero => rfl
  | succ fuel ih =>
    rw [walk, walk, stuckParent?_eq hS h]
    split
    · rfl
    · cases stuckParent? stuck' id with
      | none => rfl
      | some next => exact ih _ _

theorem findCycle_eq (hS : Class.Coupling S) (h : List.Forall₂ S stuck stuck') :
    findCycle stuck = findCycle stuck' := by
  rw [findCycle, findCycle, hS.map_id_eq h, h.length_eq]
  cases least? (stuck'.map Class.id) with
  | none => rfl
  | some id => exact congrArg (·.getD []) (walk_eq hS h _ _ _)

/-- The order of classes in step, or the same cycle. -/
theorem order_parallel (hS : Class.Coupling S) (h : List.Forall₂ S classes classes') :
    Parallel Eq (List.Forall₂ S) (order classes) (order classes') := by
  have hsorted : List.Forall₂ S (Text.sortStable idBefore classes)
      (Text.sortStable idBefore classes') := by
    refine Text.forall₂_sortStable (fun a b a' b' ha hb => ?_) h
    rw [idBefore, idBefore, hS.id ha, hS.id hb]
  have hwork := work_inStep hS ((Text.sortStable idBefore classes').map Class.id)
    (enoughSteps (Text.sortStable idBefore classes').length) 0 hsorted .nil
  rw [order, order, hS.map_id_eq hsorted, hsorted.length_eq]
  revert hwork
  generalize work _ _ ⟨Text.sortStable idBefore classes, [], 0⟩ = outcome
  generalize work _ _ ⟨Text.sortStable idBefore classes', [], 0⟩ = outcome'
  intro hwork
  cases hwork with
  | none => exact .error rfl
  | some houtcome =>
    cases houtcome with
    | placed hplaced => exact .ok hplaced
    | stuck hstuck => exact .error (by rw [findCycle_eq hS hstuck])

end Precedence

namespace Model

variable {S : Class → Class → Prop} {m m' : Model}

theorem arrange_parallel (hS : Class.Coupling S) (h : List.Forall₂ S m.classes m'.classes) :
    Parallel Eq (fun a a' => a.enums = m.enums ∧ a'.enums = m'.enums ∧
      List.Forall₂ S a.classes a'.classes) m.arrange m'.arrange :=
  (Precedence.order_parallel hS (hS.linkDerived h)).bind fun _ _ hclasses =>
    .ok ⟨rfl, rfl, hclasses⟩

end Model
end OntologyModel

/-
Ascending lists.

The functions on ordered lists take their order as a test.  `ascending` gives a
strictly ascending list of the same elements when the test is a strict order in
which any two different elements compare, and the orders of texts and of nodes
are of this kind.  `sortStable` asks for less: elements may be of equal rank, as
records are that share their id.
-/
import OntologyModel.Graph.Node

namespace OntologyModel
namespace Text

variable {α β : Type} {lt : α → α → Bool}

/-! ## Orders -/

structure StrictOrder (lt : α → α → Bool) : Prop where
  irrefl (a : α) : lt a a = false
  trans {a b c : α} (hab : lt a b = true) (hbc : lt b c = true) : lt a c = true
  connected {a b : α} (hab : lt a b = false) (hba : lt b a = false) : a = b

/-- A strict order in which elements may be of equal rank. -/
structure Ranking (lt : α → α → Bool) : Prop where
  asymm {a b : α} (hab : lt a b = true) : lt b a = false
  negTrans {a b c : α} (hba : lt b a = false) (hcb : lt c b = false) : lt c a = false

namespace StrictOrder

theorem asymm (h : StrictOrder lt) {a b : α} (hab : lt a b = true) : lt b a = false := by
  cases hba : lt b a with
  | false => rfl
  | true =>
    have haa := h.trans hab hba
    rw [h.irrefl a] at haa
    exact absurd haa Bool.false_ne_true

theorem ranking (h : StrictOrder lt) (key : β → α) :
    Ranking fun a b => lt (key a) (key b) where
  asymm hab := h.asymm hab
  negTrans := by
    intro a b c hba hcb
    cases hca : lt (key c) (key a) with
    | false => rfl
    | true =>
      -- `c` before `a` leaves `b` no place: it is neither before `a` nor after `c`.
      cases hab : lt (key a) (key b) with
      | false =>
        rw [h.connected hab hba, hcb] at hca
        exact absurd hca Bool.false_ne_true
      | true =>
        rw [h.trans hca hab] at hcb
        exact absurd hcb.symm Bool.false_ne_true

/-- Elements compare as their keys do, where no two of them share a key. -/
theorem comap (h : StrictOrder lt) (key : β → α) (hkey : ∀ a b, key a = key b → a = b) :
    StrictOrder fun a b => lt (key a) (key b) where
  irrefl a := h.irrefl (key a)
  trans hab hbc := h.trans hab hbc
  connected hab hba := hkey _ _ (h.connected hab hba)

end StrictOrder

def lex [DecidableEq α] (lt : α → α → Bool) (lt' : β → β → Bool) (a b : α × β) : Bool :=
  lt a.1 b.1 || (a.1 = b.1 && lt' a.2 b.2)

theorem lex_iff [DecidableEq α] {lt' : β → β → Bool} {a b : α × β} :
    lex lt lt' a b = true ↔ lt a.1 b.1 = true ∨ a.1 = b.1 ∧ lt' a.2 b.2 = true := by
  rw [lex, Bool.or_eq_true, Bool.and_eq_true, decide_eq_true_iff]

theorem StrictOrder.lex [DecidableEq α] {lt' : β → β → Bool} (h : StrictOrder lt)
    (h' : StrictOrder lt') : StrictOrder (lex lt lt') where
  irrefl a := by
    refine Bool.eq_false_iff.2 fun haa => ?_
    rcases lex_iff.1 haa with haa | ⟨-, haa⟩
    · exact Bool.eq_false_iff.1 (h.irrefl a.1) haa
    · exact Bool.eq_false_iff.1 (h'.irrefl a.2) haa
  trans := by
    intro a b c hab hbc
    refine lex_iff.2 ?_
    rcases lex_iff.1 hab with hab | ⟨hab, hab'⟩ <;> rcases lex_iff.1 hbc with hbc | ⟨hbc, hbc'⟩
    · exact .inl (h.trans hab hbc)
    · exact .inl (hbc ▸ hab)
    · exact .inl (hab ▸ hbc)
    · exact .inr ⟨hab.trans hbc, h'.trans hab' hbc'⟩
  connected := by
    intro a b hab hba
    have hab' := mt lex_iff.2 (Bool.eq_false_iff.1 hab)
    have hba' := mt lex_iff.2 (Bool.eq_false_iff.1 hba)
    have hfirst : a.1 = b.1 := h.connected (Bool.eq_false_iff.2 fun hlt => hab' (.inl hlt))
      (Bool.eq_false_iff.2 fun hlt => hba' (.inl hlt))
    refine Prod.ext hfirst (h'.connected ?_ ?_)
    · exact Bool.eq_false_iff.2 fun hlt => hab' (.inr ⟨hfirst, hlt⟩)
    · exact Bool.eq_false_iff.2 fun hlt => hba' (.inr ⟨hfirst.symm, hlt⟩)

theorem strictOrder_nat : StrictOrder fun a b : Nat => decide (a < b) where
  irrefl a := decide_eq_false (Nat.lt_irrefl a)
  trans hab hbc := decide_eq_true (Nat.lt_trans (of_decide_eq_true hab) (of_decide_eq_true hbc))
  connected hab hba := by
    have hab := of_decide_eq_false hab
    have hba := of_decide_eq_false hba
    omega

theorem before_iff {a b : String} : before a b = true ↔ a < b := decide_eq_true_iff

theorem before_eq_false_iff {a b : String} : before a b = false ↔ ¬ a < b := decide_eq_false_iff_not

theorem strictOrder_before : StrictOrder before where
  irrefl a := before_eq_false_iff.2 (String.lt_irrefl a)
  trans hab hbc := before_iff.2 (String.lt_trans (before_iff.1 hab) (before_iff.1 hbc))
  connected hab hba :=
    String.le_antisymm (before_eq_false_iff.1 hba) (before_eq_false_iff.1 hab)

/-! ## Lists without repetition -/

theorem mem_insertDistinct (h : StrictOrder lt) {a x : α} {l : List α} :
    x ∈ insertDistinct lt a l ↔ x = a ∨ x ∈ l := by
  induction l with
  | nil => rw [insertDistinct, List.mem_singleton, or_iff_left List.not_mem_nil]
  | cons b l ih =>
    rw [insertDistinct]
    split
    · exact List.mem_cons
    · split
      · rw [List.mem_cons, ih, List.mem_cons, or_left_comm]
      · -- `b` is `a` itself.
        have hab : a = b := h.connected (by simpa using ‹¬lt a b = true›)
          (by simpa using ‹¬lt b a = true›)
        rw [hab, List.mem_cons, ← or_assoc, or_self]

theorem pairwise_insertDistinct (h : StrictOrder lt) (a : α) {l : List α}
    (hl : l.Pairwise fun x y => lt x y = true) :
    (insertDistinct lt a l).Pairwise fun x y => lt x y = true := by
  induction l with
  | nil => exact List.pairwise_singleton _ a
  | cons b l ih =>
    obtain ⟨hb, hl'⟩ := List.pairwise_cons.1 hl
    rw [insertDistinct]
    split
    · rename_i hab
      refine List.pairwise_cons.2 ⟨fun x hx => ?_, hl⟩
      rcases List.mem_cons.1 hx with rfl | hx
      · exact hab
      · exact h.trans hab (hb x hx)
    · split
      · rename_i hba
        refine List.pairwise_cons.2 ⟨fun x hx => ?_, ih hl'⟩
        rcases (mem_insertDistinct h).1 hx with rfl | hx
        · exact hba
        · exact hb x hx
      · exact hl

theorem mem_ascending (h : StrictOrder lt) {x : α} {l : List α} :
    x ∈ ascending lt l ↔ x ∈ l := by
  induction l with
  | nil => exact Iff.rfl
  | cons a l ih =>
    show x ∈ insertDistinct lt a (ascending lt l) ↔ _
    rw [mem_insertDistinct h, ih, List.mem_cons]

theorem pairwise_ascending (h : StrictOrder lt) (l : List α) :
    (ascending lt l).Pairwise fun x y => lt x y = true := by
  induction l with
  | nil => exact List.Pairwise.nil
  | cons a l ih => exact pairwise_insertDistinct h a ih

theorem nodup_of_ascending (h : StrictOrder lt) {l : List α}
    (hl : l.Pairwise fun x y => lt x y = true) : l.Nodup := by
  refine hl.imp fun {a b} hab heq => ?_
  rw [heq, h.irrefl] at hab
  exact absurd hab Bool.false_ne_true

/-- Ascending lists of the same elements are one list. -/
theorem eq_of_ascending (h : StrictOrder lt) {l l' : List α}
    (hl : l.Pairwise fun x y => lt x y = true) (hl' : l'.Pairwise fun x y => lt x y = true)
    (hmem : ∀ x, x ∈ l ↔ x ∈ l') : l = l' := by
  have hperm : l.Perm l' :=
    (List.perm_ext_iff_of_nodup (nodup_of_ascending h hl) (nodup_of_ascending h hl')).2 hmem
  refine hperm.eq_of_pairwise (fun a b _ _ hab hba => ?_) hl hl'
  rw [h.asymm hab] at hba
  exact absurd hba Bool.false_ne_true

theorem ascending_congr (h : StrictOrder lt) {l l' : List α} (hmem : ∀ x, x ∈ l ↔ x ∈ l') :
    ascending lt l = ascending lt l' := by
  refine eq_of_ascending h (pairwise_ascending h l) (pairwise_ascending h l') fun x => ?_
  rw [mem_ascending h, mem_ascending h]
  exact hmem x

theorem mem_ascendingTexts {x : String} {l : List String} : x ∈ ascendingTexts l ↔ x ∈ l :=
  mem_ascending strictOrder_before

theorem pairwise_ascendingTexts (l : List String) : (ascendingTexts l).Pairwise (· < ·) :=
  (pairwise_ascending strictOrder_before l).imp before_iff.1

theorem nodup_of_pairwise_lt {l : List String} (h : l.Pairwise (· < ·)) : l.Nodup :=
  nodup_of_ascending strictOrder_before (h.imp before_iff.2)

/-! ## Lists with repetition -/

theorem pairwise_insertStable (h : Ranking lt) (a : α) {l : List α}
    (hl : l.Pairwise fun x y => lt y x = false) :
    (insertStable lt a l).Pairwise fun x y => lt y x = false := by
  induction l with
  | nil => exact List.pairwise_singleton _ a
  | cons b l ih =>
    obtain ⟨hb, hl'⟩ := List.pairwise_cons.1 hl
    rw [insertStable]
    split
    · rename_i hba
      refine List.pairwise_cons.2 ⟨fun x hx => ?_, ih hl'⟩
      rcases List.mem_cons.1 ((perm_insertStable lt a l).mem_iff.1 hx) with rfl | hx
      · exact h.asymm hba
      · exact hb x hx
    · rename_i hba
      have hba' : lt b a = false := by simpa using hba
      refine List.pairwise_cons.2 ⟨fun x hx => ?_, hl⟩
      rcases List.mem_cons.1 hx with rfl | hx
      · exact hba'
      · exact h.negTrans hba' (hb x hx)

theorem pairwise_sortStable (h : Ranking lt) (l : List α) :
    (sortStable lt l).Pairwise fun x y => lt y x = false := by
  induction l with
  | nil => exact List.Pairwise.nil
  | cons a l ih => exact pairwise_insertStable h a ih

theorem sortStable_eq_self {l : List α} (hl : l.Pairwise fun x y => lt y x = false) :
    sortStable lt l = l := by
  induction l with
  | nil => rfl
  | cons a l ih =>
    obtain ⟨ha, hl'⟩ := List.pairwise_cons.1 hl
    show insertStable lt a (sortStable lt l) = a :: l
    rw [ih hl']
    cases l with
    | nil => rfl
    | cons b l =>
      have hba : lt b a = false := ha b List.mem_cons_self
      rw [insertStable, hba, if_neg Bool.false_ne_true]

/-- Records that stand in ascending order of id are not moved. -/
theorem sortStable_eq_self_of_pairwise_lt (key : α → String) {l : List α}
    (hl : (l.map key).Pairwise (· < ·)) :
    sortStable (fun a b => before (key a) (key b)) l = l := by
  refine sortStable_eq_self ((List.pairwise_map.1 hl).imp fun {a b} hab => ?_)
  exact strictOrder_before.asymm (before_iff.2 hab)

/-- Records with different ids stand in strictly ascending order of id once they
are sorted by it. -/
theorem pairwise_lt_sortStable (key : α → String) {l : List α} (hl : (l.map key).Nodup) :
    ((sortStable (fun a b => before (key a) (key b)) l).map key).Pairwise (· < ·) := by
  have hsorted := pairwise_sortStable (strictOrder_before.ranking key) l
  have hnodup := ((perm_sortStable (fun a b => before (key a) (key b)) l).map key).nodup_iff.2 hl
  rw [List.Nodup, List.pairwise_map] at hnodup
  rw [List.pairwise_map]
  refine (hsorted.and hnodup).imp ?_
  intro a b hab
  obtain ⟨hba, hne⟩ := hab
  cases hab : before (key a) (key b) with
  | true => exact before_iff.1 hab
  | false => exact absurd (strictOrder_before.connected hab hba) hne

variable {κ : Type}

/-- Sorted lists with the same keys have them in the same order, when no key stands
before one that precedes it. -/
theorem map_sortStable_eq_of_perm (hrank : Ranking lt) {before : κ → κ → Bool}
    (hkeys : StrictOrder before) (key : α → κ)
    (hkey : ∀ a b, lt a b = false → before (key a) (key b) = false) {l l' : List α}
    (hperm : (l.map key).Perm (l'.map key)) :
    (sortStable lt l).map key = (sortStable lt l').map key := by
  have hsorted (l : List α) :
      ((sortStable lt l).map key).Pairwise fun x y => before y x = false :=
    List.pairwise_map.2 ((pairwise_sortStable hrank l).imp fun {a b} => hkey b a)
  refine List.Perm.eq_of_pairwise (fun x y _ _ hyx hxy => hkeys.connected hxy hyx) (hsorted l)
    (hsorted l') ?_
  exact ((perm_sortStable lt l).map key).trans
    (hperm.trans ((perm_sortStable lt l').map key).symm)

/-- The places of the elements do not matter where elements of equal rank are equal. -/
theorem sortStable_eq_of_perm (hrank : Ranking lt) {l l' : List α} (hperm : l.Perm l')
    (heq : ∀ a ∈ l, ∀ b ∈ l, lt a b = false → lt b a = false → a = b) :
    sortStable lt l = sortStable lt l' := by
  refine List.Perm.eq_of_pairwise (fun a b ha hb hba hab => ?_) (pairwise_sortStable hrank l)
    (pairwise_sortStable hrank l') ?_
  · have ha' : a ∈ l := (perm_sortStable lt l).mem_iff.1 ha
    have hb' : b ∈ l := hperm.mem_iff.2 ((perm_sortStable lt l').mem_iff.1 hb)
    exact heq a ha' b hb' hab hba
  · exact (perm_sortStable lt l).trans (hperm.trans (perm_sortStable lt l').symm)

theorem sortStable_append (lt : α → α → Bool) (l l' : List α) :
    sortStable lt (l ++ l') = l.foldr (insertStable lt) (sortStable lt l') := List.foldr_append

theorem filter_insertStable {p : α → Bool} (hp : ∀ a b, p a = true → p b = true → lt a b = false)
    (a : α) (l : List α) : (insertStable lt a l).filter p = (a :: l).filter p := by
  induction l with
  | nil => rfl
  | cons b l ih =>
    rw [insertStable]
    split
    · rename_i hba
      -- `a` moves past `b`, so that at most one of them is kept.
      cases hb : p b with
      | false => rw [List.filter_cons_of_neg (by simp [hb]), ih]; simp [List.filter_cons, hb]
      | true =>
        cases ha : p a with
        | false => rw [List.filter_cons, ih]; simp [List.filter_cons, ha]
        | true =>
          rw [hp b a hb ha] at hba
          exact absurd hba Bool.false_ne_true
    · rfl

/-- Elements of equal rank keep the places that they have among themselves. -/
theorem filter_sortStable {p : α → Bool} (hp : ∀ a b, p a = true → p b = true → lt a b = false)
    (l : List α) : (sortStable lt l).filter p = l.filter p := by
  induction l with
  | nil => rfl
  | cons a l ih =>
    show (insertStable lt a (sortStable lt l)).filter p = _
    rw [filter_insertStable hp, List.filter_cons, List.filter_cons, ih]

end Text

namespace Node

open Text (StrictOrder)

/-- Nodes are ordered as the pairs of their rank and their text. -/
theorem strictOrder_before : StrictOrder before := by
  have hkey (a b : Node) (h : (a.rank, a.text) = (b.rank, b.text)) : a = b :=
    eq_of_rank_text (Prod.mk.inj h).1 (Prod.mk.inj h).2
  exact (Text.strictOrder_nat.lex Text.strictOrder_before).comap (fun n : Node => (n.rank, n.text))
    hkey

end Node
end OntologyModel

/-
Ordered lists.

`ascending` keeps one of each element and puts them in order; `sortStable`
keeps every element, and elements of equal rank keep the places they had among
themselves.  Both insert one element at a time by structural recursion, so that
closed instances reduce.
-/
namespace OntologyModel
namespace Text

variable {α : Type}

/-- Puts `a` in front of the first element that it precedes.  An element that
neither precedes nor follows `a` stands for `a` already, and nothing is added. -/
def insertDistinct (lt : α → α → Bool) (a : α) : List α → List α
  | [] => [a]
  | b :: l =>
    if lt a b then a :: b :: l
    else if lt b a then b :: insertDistinct lt a l
    else b :: l

def ascending (lt : α → α → Bool) (l : List α) : List α :=
  l.foldr (insertDistinct lt) []

def insertStable (lt : α → α → Bool) (a : α) : List α → List α
  | [] => [a]
  | b :: l => if lt b a then b :: insertStable lt a l else a :: b :: l

/-- The elements of a list in order.  Equal elements keep their places among
themselves, because each is inserted in front of its equals to the right. -/
def sortStable (lt : α → α → Bool) (l : List α) : List α :=
  l.foldr (insertStable lt) []

/-- The order of texts, by the code points of their characters. -/
def before (a b : String) : Bool := decide (a < b)

def ascendingTexts (l : List String) : List String := ascending before l

theorem perm_insertStable (lt : α → α → Bool) (a : α) (l : List α) :
    (insertStable lt a l).Perm (a :: l) := by
  induction l with
  | nil => exact List.Perm.refl _
  | cons b l ih =>
    rw [insertStable]
    split
    · exact (ih.cons b).trans (List.Perm.swap a b l)
    · exact List.Perm.refl _

theorem perm_sortStable (lt : α → α → Bool) (l : List α) : (sortStable lt l).Perm l := by
  induction l with
  | nil => exact List.Perm.refl _
  | cons a l ih => exact (perm_insertStable lt a _).trans (ih.cons a)

end Text
end OntologyModel

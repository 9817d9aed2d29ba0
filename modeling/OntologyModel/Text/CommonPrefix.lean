/-
The longest text that several texts start with.

Texts are compared character by character, so a text is never cut inside one.
`commonStart` folds the start shared by two lists over all of them, and
`removeCommonPrefix` drops from a text what it shares with the others.
-/
namespace OntologyModel
namespace Text

def sharedStart : List Char → List Char → List Char
  | a :: s, b :: t => if a = b then a :: sharedStart s t else []
  | _, _ => []

/-- The characters that all lists share from their start.  No list shares
nothing. -/
def commonStart : List (List Char) → List Char
  | [] => []
  | s :: rest => rest.foldl sharedStart s

/-- The longest text that every given text starts with. -/
def commonPrefix (values : List String) : String :=
  String.ofList (commonStart (values.map String.toList))

/-- `value` without the start that it shares with all of `others`. -/
def removeCommonPrefix (value : String) (others : List String) : String :=
  String.ofList
    (value.toList.drop (commonStart (value.toList :: others.map String.toList)).length)

theorem sharedStart_nil_left (t : List Char) : sharedStart [] t = [] := by
  cases t <;> rfl

/-- The shared start is a start of the first list. -/
theorem sharedStart_isPrefix_left (s t : List Char) : sharedStart s t <+: s := by
  induction s generalizing t with
  | nil => exact (sharedStart_nil_left t).symm ▸ List.nil_prefix
  | cons a s ih =>
    cases t with
    | nil => exact List.nil_prefix
    | cons b t =>
      by_cases h : a = b
      · simpa [sharedStart, h] using ih t
      · simp [sharedStart, h]

/-- The shared start is a start of the second list. -/
theorem sharedStart_isPrefix_right (s t : List Char) : sharedStart s t <+: t := by
  induction s generalizing t with
  | nil => rw [sharedStart_nil_left]; exact List.nil_prefix
  | cons a s ih =>
    cases t with
    | nil => exact List.nil_prefix
    | cons b t =>
      by_cases h : a = b
      · subst h; simpa [sharedStart] using ih t
      · simp [sharedStart, h]

/-- Whatever both lists start with, their shared start starts with. -/
theorem isPrefix_sharedStart {p s t : List Char} (hs : p <+: s) (ht : p <+: t) :
    p <+: sharedStart s t := by
  induction p generalizing s t with
  | nil => exact List.nil_prefix
  | cons c p ih =>
    obtain ⟨s', rfl⟩ := hs
    obtain ⟨t', rfl⟩ := ht
    simpa [sharedStart] using ih (List.prefix_append p s') (List.prefix_append p t')

end Text
end OntologyModel

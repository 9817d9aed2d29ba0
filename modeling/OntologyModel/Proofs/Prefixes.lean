/-
What a text does not share with others.

The longest start that several texts share is described without a computation: every one of
them starts with it, and it starts with whatever every one of them starts with.  Folding the
start that two texts share over all of them finds it.
-/
import OntologyModel.Text.CommonPrefix

namespace OntologyModel
namespace Text

variable {s p q : List Char} {values : List (List Char)}

structure LongestStart (values : List (List Char)) (p : List Char) : Prop where
  shared : ∀ s ∈ values, p <+: s
  longest : ∀ q, (∀ s ∈ values, q <+: s) → q <+: p

theorem foldl_sharedStart_isPrefix (s : List Char) (values : List (List Char)) :
    values.foldl sharedStart s <+: s := by
  induction values generalizing s with
  | nil => exact List.prefix_rfl
  | cons t rest ih => exact (ih (sharedStart s t)).trans (sharedStart_isPrefix_left s t)

theorem foldl_sharedStart_isPrefix_of_mem {t : List Char} (ht : t ∈ values) (s : List Char) :
    values.foldl sharedStart s <+: t := by
  induction values generalizing s with
  | nil => exact absurd ht List.not_mem_nil
  | cons t' rest ih =>
    rcases List.mem_cons.1 ht with rfl | ht
    · exact (foldl_sharedStart_isPrefix _ rest).trans (sharedStart_isPrefix_right s t)
    · exact ih ht (sharedStart s t')

theorem isPrefix_foldl_sharedStart (hs : q <+: s) (hvalues : ∀ t ∈ values, q <+: t) :
    q <+: values.foldl sharedStart s := by
  induction values generalizing s with
  | nil => exact hs
  | cons t rest ih =>
    obtain ⟨ht, hrest⟩ := List.forall_mem_cons.1 hvalues
    exact ih (isPrefix_sharedStart hs ht) hrest

theorem longestStart_commonStart (s : List Char) (values : List (List Char)) :
    LongestStart (s :: values) (commonStart (s :: values)) where
  shared t ht := by
    rcases List.mem_cons.1 ht with rfl | ht
    · exact foldl_sharedStart_isPrefix t values
    · exact foldl_sharedStart_isPrefix_of_mem ht s
  longest q hq := by
    obtain ⟨hs, hvalues⟩ := List.forall_mem_cons.1 hq
    exact isPrefix_foldl_sharedStart hs hvalues

/-- A text is the longest start that it shares with others, followed by the rest. -/
def Beyond (others : List String) (text rest : String) : Prop :=
  ∃ p, LongestStart ((text :: others).map String.toList) p ∧ p ++ rest.toList = text.toList

theorem beyond_removeCommonPrefix (value : String) (others : List String) :
    Beyond others value (removeCommonPrefix value others) := by
  have hstart := longestStart_commonStart value.toList (others.map String.toList)
  refine ⟨_, hstart, ?_⟩
  rw [removeCommonPrefix, String.toList_ofList]
  exact List.prefix_iff_eq_append.1 (hstart.shared _ List.mem_cons_self)

end Text
end OntologyModel

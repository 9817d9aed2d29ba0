/-
Cutting a text at a byte offset.

A text may only be cut between two of its characters, or at its ends; a cut at an offset
inside a character does not exist.  Characters differ in width, so an offset that is found
by walking through one text says nothing by itself about another one.  The shared start of
several texts is written here once more with offsets in place of characters, every cut
being one that can fail.
-/
import OntologyModel.Text.CommonPrefix

namespace OntologyModel
namespace Text

/-- Whether a byte offset stands between two characters of a text, or at one of its ends. -/
abbrev IsBoundary (s : String) (offset : Nat) : Prop := String.Pos.Raw.IsValid s ⟨offset⟩

def before? (s : String) (offset : Nat) : Option String :=
  if h : IsBoundary s offset then some (s.sliceTo (s.pos ⟨offset⟩ h)).copy else none

def after? (s : String) (offset : Nat) : Option String :=
  if h : IsBoundary s offset then some (s.sliceFrom (s.pos ⟨offset⟩ h)).copy else none

/-- The characters of a list with the byte offsets at which they stand, the first of them
at a given one. -/
def withOffsets : Nat → List Char → List (Nat × Char)
  | _, [] => []
  | offset, c :: s => (offset, c) :: withOffsets (offset + c.utf8Size) s

/-- The offset in `s` of the first character that differs from the one in the same place
of `t`. -/
def firstDifference? (offset : Nat) (s t : List Char) : Option Nat :=
  (((withOffsets offset s).zip t).find? fun p => p.1.2 ≠ p.2).map fun p => p.1.1

/-- The offset at which the shared start of two texts ends: that of the first difference,
or the end of the text that is used up first. -/
def sharedLength (s t : String) : Nat :=
  (firstDifference? 0 s.toList t.toList).getD (min s.utf8ByteSize t.utf8ByteSize)

/-- `commonPrefix`, found by cutting the first text back at one offset after the other. -/
def commonPrefixCut? : List String → Option String
  | [] => some ""
  | value :: rest =>
    rest.foldlM (fun shared other => before? shared (sharedLength shared other)) value

/-- `removeCommonPrefix`, found by a cut at the length of the common prefix. -/
def removeCommonPrefixCut? (value : String) (others : List String) : Option String :=
  (commonPrefixCut? (value :: others)).bind fun shared => after? value shared.utf8ByteSize

theorem isBoundary_append (s t : String) : IsBoundary (s ++ t) s.utf8ByteSize :=
  String.Pos.Raw.isValid_iff_exists_append.2 ⟨s, t, rfl, rfl⟩

theorem before?_append (s t : String) : before? (s ++ t) s.utf8ByteSize = some s := by
  have hsplits : ((s ++ t).pos ⟨s.utf8ByteSize⟩ (isBoundary_append s t)).Splits s t := ⟨rfl, rfl⟩
  rw [before?, dif_pos (isBoundary_append s t), hsplits.copy_sliceTo_eq]

theorem after?_append (s t : String) : after? (s ++ t) s.utf8ByteSize = some t := by
  have hsplits : ((s ++ t).pos ⟨s.utf8ByteSize⟩ (isBoundary_append s t)).Splits s t := ⟨rfl, rfl⟩
  rw [after?, dif_pos (isBoundary_append s t), hsplits.copy_sliceFrom_eq]

/-- No cut falls between the two bytes of a letter. -/
example : before? "né" 1 = some "n" ∧ before? "né" 2 = none ∧ before? "né" 3 = some "né" := by
  decide

theorem utf8ByteSize_ofList_cons (c : Char) (s : List Char) :
    (String.ofList (c :: s)).utf8ByteSize = c.utf8Size + (String.ofList s).utf8ByteSize := by
  rw [String.ofList_cons, String.utf8ByteSize_append, String.utf8ByteSize_singleton]

/-- Where the walk through both lists ends, be it at a difference or at the end of one list, is
where their shared start ends.  The offset is that at which the walk begins. -/
theorem firstDifference?_getD (offset : Nat) (s t : List Char) :
    (firstDifference? offset s t).getD
        (offset + min (String.ofList s).utf8ByteSize (String.ofList t).utf8ByteSize) =
      offset + (String.ofList (sharedStart s t)).utf8ByteSize := by
  induction s generalizing offset t with
  | nil => simp [firstDifference?, withOffsets, sharedStart]
  | cons a s ih =>
    cases t with
    | nil => simp [firstDifference?, sharedStart]
    | cons b t =>
      by_cases hab : a = b
      · have hnext : firstDifference? offset (a :: s) (b :: t) =
            firstDifference? (offset + a.utf8Size) s t := by
          simp [firstDifference?, withOffsets, hab]
        rw [hnext, sharedStart, if_pos hab, ← hab, utf8ByteSize_ofList_cons,
          utf8ByteSize_ofList_cons, utf8ByteSize_ofList_cons, Nat.add_min_add_left,
          ← Nat.add_assoc, ← Nat.add_assoc]
        exact ih (offset + a.utf8Size) t
      · have hhere : firstDifference? offset (a :: s) (b :: t) = some offset := by
          simp [firstDifference?, withOffsets, hab]
        rw [hhere, sharedStart, if_neg hab]
        rfl

theorem sharedLength_eq (s t : String) :
    sharedLength s t = (String.ofList (sharedStart s.toList t.toList)).utf8ByteSize := by
  have hstart := firstDifference?_getD 0 s.toList t.toList
  rw [String.ofList_toList, String.ofList_toList, Nat.zero_add, Nat.zero_add] at hstart
  exact hstart

end Text
end OntologyModel

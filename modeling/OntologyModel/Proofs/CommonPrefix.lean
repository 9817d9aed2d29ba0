/-
The longest common prefix, found in three ways.

Folding the start that two texts share over all of them, merging by halves, and cutting the
first text back at one byte offset after the other give the same text.  The first two are
compared through what the longest shared start is: a list of texts has one at most, and it
depends on their set alone.  A cut is compared with the fold step by step, each cut standing
right after the start that it keeps.
-/
import OntologyModel.Proofs.Prefixes
import OntologyModel.Text.Offsets

namespace OntologyModel
namespace Text

variable {p q : List Char} {values values' : List (List Char)}

/-! ## What is found -/

theorem LongestStart.unique (hp : LongestStart values p) (hq : LongestStart values q) : p = q :=
  (hq.longest p hp.shared).eq_of_length_le (hp.longest q hq.shared).length_le

theorem LongestStart.of_same_members (hp : LongestStart values p)
    (h : ∀ s, s ∈ values' ↔ s ∈ values) : LongestStart values' p where
  shared s hs := hp.shared s ((h s).1 hs)
  longest q hq := hp.longest q fun s hs => hq s ((h s).2 hs)

theorem LongestStart.append (hp : LongestStart values p) (hq : LongestStart values' q) :
    LongestStart (values ++ values') (sharedStart p q) where
  shared s hs := by
    rcases List.mem_append.1 hs with hs | hs
    · exact (sharedStart_isPrefix_left p q).trans (hp.shared s hs)
    · exact (sharedStart_isPrefix_right p q).trans (hq.shared s hs)
  longest r hr := by
    have hleft : r <+: p := hp.longest r fun s hs => hr s (List.mem_append_left _ hs)
    have hright : r <+: q := hq.longest r fun s hs => hr s (List.mem_append_right _ hs)
    exact isPrefix_sharedStart hleft hright

theorem longestStart_singleton (s : List Char) : LongestStart [s] s where
  shared _ ht := List.mem_singleton.1 ht ▸ List.prefix_rfl
  longest _ hq := hq s (List.mem_singleton_self s)

theorem longestStart_commonPrefix {texts : List String} (h : texts ≠ []) :
    LongestStart (texts.map String.toList) (commonPrefix texts).toList := by
  obtain ⟨text, rest, rfl⟩ := List.exists_cons_of_ne_nil h
  rw [commonPrefix, String.toList_ofList]
  exact longestStart_commonStart text.toList (rest.map String.toList)

/-! ## By halves -/

/-- The start that all lists share, from those that their two halves share. -/
def halvedStart : List (List Char) → List Char
  | [] => []
  | [s] => s
  | s :: t :: rest =>
    sharedStart (halvedStart ((s :: t :: rest).take ((s :: t :: rest).length / 2)))
      (halvedStart ((s :: t :: rest).drop ((s :: t :: rest).length / 2)))
termination_by values => values.length
decreasing_by
  · simp only [List.length_take, List.length_cons]
    omega
  · simp only [List.length_drop, List.length_cons]
    omega

theorem longestStart_halvedStart (h : values ≠ []) : LongestStart values (halvedStart values) := by
  fun_induction halvedStart values with
  | case1 => exact absurd rfl h
  | case2 s => exact longestStart_singleton s
  | case3 _ _ _ ihleft ihright =>
    have hleft := ihleft (by simp)
    have hright := ihright (by simp; omega)
    have hwhole := hleft.append hright
    rwa [List.take_append_drop] at hwhole

/-! ## By cuts -/

theorem isPrefix_append (s t : String) : s.toList <+: (s ++ t).toList := by
  rw [String.toList_append]
  exact List.prefix_append _ _

theorem exists_append_of_isPrefix {s t : String} (h : s.toList <+: t.toList) :
    ∃ rest, t = s ++ rest := by
  obtain ⟨rest, hrest⟩ := h
  refine ⟨String.ofList rest, ?_⟩
  rw [← String.toList_inj, String.toList_append, String.toList_ofList, hrest]

theorem isBoundary_of_isPrefix {s t : String} (h : s.toList <+: t.toList) :
    IsBoundary t s.utf8ByteSize := by
  obtain ⟨rest, rfl⟩ := exists_append_of_isPrefix h
  exact isBoundary_append s rest

theorem before?_of_isPrefix {s t : String} (h : s.toList <+: t.toList) :
    before? t s.utf8ByteSize = some s := by
  obtain ⟨rest, rfl⟩ := exists_append_of_isPrefix h
  exact before?_append s rest

/-- The offset that is found by walking through one text is a place to cut either of them. -/
theorem isBoundary_sharedLength (s t : String) :
    IsBoundary s (sharedLength s t) ∧ IsBoundary t (sharedLength s t) := by
  rw [sharedLength_eq]
  constructor
  · refine isBoundary_of_isPrefix ?_
    rw [String.toList_ofList]
    exact sharedStart_isPrefix_left s.toList t.toList
  · refine isBoundary_of_isPrefix ?_
    rw [String.toList_ofList]
    exact sharedStart_isPrefix_right s.toList t.toList

theorem before?_sharedLength (s t : String) :
    before? s (sharedLength s t) = some (String.ofList (sharedStart s.toList t.toList)) := by
  rw [sharedLength_eq]
  refine before?_of_isPrefix ?_
  rw [String.toList_ofList]
  exact sharedStart_isPrefix_left s.toList t.toList

theorem foldlM_before?_sharedLength (text : String) (texts : List String) :
    texts.foldlM (fun shared other => before? shared (sharedLength shared other)) text =
      some (String.ofList ((texts.map String.toList).foldl sharedStart text.toList)) := by
  induction texts generalizing text with
  | nil => rw [List.foldlM_nil, List.map_nil, List.foldl_nil, String.ofList_toList]; rfl
  | cons other rest ih =>
    rw [List.foldlM_cons, before?_sharedLength, List.map_cons, List.foldl_cons]
    refine (ih _).trans ?_
    rw [String.toList_ofList]

theorem commonPrefixCut?_eq (texts : List String) :
    commonPrefixCut? texts = some (commonPrefix texts) := by
  cases texts with
  | nil => rfl
  | cons text rest => exact foldlM_before?_sharedLength text rest

theorem commonPrefix_isPrefix (text : String) (others : List String) :
    (commonPrefix (text :: others)).toList <+: text.toList :=
  (longestStart_commonPrefix (List.cons_ne_nil text others)).shared _ List.mem_cons_self

theorem commonPrefix_append_removeCommonPrefix (text : String) (others : List String) :
    commonPrefix (text :: others) ++ removeCommonPrefix text others = text := by
  have hstart := commonPrefix_isPrefix text others
  rw [← String.toList_inj, String.toList_append, removeCommonPrefix, String.toList_ofList]
  rw [commonPrefix, String.toList_ofList] at hstart ⊢
  exact List.prefix_iff_eq_append.1 hstart

theorem removeCommonPrefixCut?_eq (text : String) (others : List String) :
    removeCommonPrefixCut? text others = some (removeCommonPrefix text others) := by
  rw [removeCommonPrefixCut?, commonPrefixCut?_eq, Option.bind_some]
  have hcut := after?_append (commonPrefix (text :: others)) (removeCommonPrefix text others)
  rwa [commonPrefix_append_removeCommonPrefix] at hcut

/-! ## The greatest common prefix -/

/-- The common prefix is a prefix of every text, and every prefix of all of them is one of it.
So it depends on the set of the texts alone, and merging by halves finds it as well.  Cutting
finds it, and the rest that is left of a text without it, so that no cut ever falls inside a
character. -/
theorem commonPrefix_greatest (texts : List String) :
    (texts ≠ [] → LongestStart (texts.map String.toList) (commonPrefix texts).toList) ∧
    commonPrefix [] = "" ∧
    (∀ texts', (∀ text, text ∈ texts' ↔ text ∈ texts) →
      commonPrefix texts' = commonPrefix texts) ∧
    commonPrefix texts = String.ofList (halvedStart (texts.map String.toList)) ∧
    commonPrefixCut? texts = some (commonPrefix texts) ∧
    (∀ text, commonPrefix (text :: texts) ++ removeCommonPrefix text texts = text ∧
      IsBoundary text (commonPrefix (text :: texts)).utf8ByteSize ∧
      removeCommonPrefixCut? text texts = some (removeCommonPrefix text texts)) ∧
    (∀ s t, IsBoundary s (sharedLength s t) ∧ IsBoundary t (sharedLength s t)) := by
  refine ⟨longestStart_commonPrefix, rfl, fun texts' hsame => ?_, ?_, commonPrefixCut?_eq texts,
    fun text => ⟨commonPrefix_append_removeCommonPrefix text texts,
      isBoundary_of_isPrefix (commonPrefix_isPrefix text texts),
      removeCommonPrefixCut?_eq text texts⟩,
    isBoundary_sharedLength⟩
  · by_cases hempty : texts = []
    · have hempty' : texts' = [] := by
        refine List.eq_nil_iff_forall_not_mem.2 fun text htext => ?_
        rw [hempty] at hsame
        exact List.not_mem_nil ((hsame text).1 htext)
      rw [hempty, hempty']
    · have hnonempty : texts' ≠ [] := by
        obtain ⟨text, htext⟩ := List.exists_mem_of_ne_nil texts hempty
        exact List.ne_nil_of_mem ((hsame text).2 htext)
      have hmembers : ∀ s, s ∈ texts'.map String.toList ↔ s ∈ texts.map String.toList := by
        intro s
        rw [List.mem_map, List.mem_map]
        exact exists_congr fun text => and_congr_left' (hsame text)
      have hlongest := (longestStart_commonPrefix hempty).of_same_members hmembers
      exact String.toList_inj.1 ((longestStart_commonPrefix hnonempty).unique hlongest)
  · by_cases hempty : texts = []
    · rw [hempty, List.map_nil, halvedStart]
      rfl
    · have hstarts : texts.map String.toList ≠ [] := mt List.map_eq_nil_iff.1 hempty
      have hhalved := longestStart_halvedStart hstarts
      rw [← (longestStart_commonPrefix hempty).unique hhalved, String.ofList_toList]

/-- The accented letters share their first byte, which is not part of the prefix. -/
theorem commonPrefix_greatest_accents :
    ["café", "cafè"] ≠ [] ∧
    LongestStart (["café", "cafè"].map String.toList) "caf".toList ∧
    commonPrefix ["cafè", "café", "cafè"] = "caf" ∧
    removeCommonPrefix "café" ["cafè"] = "é" ∧
    ¬IsBoundary "café" 4 := by
  have hprefix : commonPrefix ["café", "cafè"] = "caf" := by decide
  obtain ⟨hlongest, -, hset, -⟩ := commonPrefix_greatest ["café", "cafè"]
  refine ⟨by simp, ?_, ?_, by decide, by decide⟩
  · rw [← hprefix]
    exact hlongest (by simp)
  · rw [hset _ (by simp), hprefix]

end Text
end OntologyModel

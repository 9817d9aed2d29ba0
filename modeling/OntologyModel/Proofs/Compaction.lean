/-
What the short form of an identifier is.

Compaction is a scan that keeps the best binding so far.  What it finds is said without the
scan: the longest namespace that the identifier starts with, the prefix that is bound to it
last, and what remains.  Of two texts that an identifier starts with, the longer determines
the shorter, so that namespaces of one length are one namespace; therefore the order of the
bindings decides between prefixes of one namespace and about nothing else.
-/
import OntologyModel.Context.Namespaces
import OntologyModel.Proofs.CommonPrefix
import Mathlib.Data.List.Induction

namespace OntologyModel
namespace Namespaces

variable {ns other : Namespaces} {bs : List Binding} {b : Binding}
variable {bound bound' : List String} {iri space space' rest name : String}

/-! ## Taking a namespace off -/

/-- A namespace that is not empty and that an identifier starts with. -/
def Fits (space iri : String) : Prop := space ≠ "" ∧ space.toList <+: iri.toList

instance (space iri : String) : Decidable (Fits space iri) :=
  inferInstanceAs (Decidable (space ≠ "" ∧ space.toList <+: iri.toList))

theorem dropStart?_eq_some_iff {start s t : List Char} :
    dropStart? start s = some t ↔ start ++ t = s := by
  induction start generalizing s with
  | nil => simp [dropStart?, eq_comm]
  | cons a start ih =>
    cases s with
    | nil => simp [dropStart?]
    | cons b s =>
      by_cases hab : a = b
      · rw [dropStart?, if_pos hab, ih, hab]
        simp
      · simp [dropStart?, hab]

theorem restAfter?_eq_some_iff :
    restAfter? space iri = some rest ↔ space ≠ "" ∧ space ++ rest = iri := by
  by_cases hempty : space = ""
  · simp [restAfter?, hempty]
  · rw [restAfter?, if_neg hempty, Option.map_eq_some_iff]
    constructor
    · rintro ⟨t, ht, rfl⟩
      refine ⟨hempty, ?_⟩
      rw [← String.toList_inj, String.toList_append, String.toList_ofList]
      exact dropStart?_eq_some_iff.1 ht
    · rintro ⟨-, rfl⟩
      refine ⟨rest.toList, ?_, String.ofList_toList⟩
      rw [dropStart?_eq_some_iff, String.toList_append]

theorem fits_iff_exists : Fits space iri ↔ ∃ rest, restAfter? space iri = some rest := by
  constructor
  · rintro ⟨hne, hstart⟩
    obtain ⟨rest, rfl⟩ := Text.exists_append_of_isPrefix hstart
    exact ⟨rest, restAfter?_eq_some_iff.2 ⟨hne, rfl⟩⟩
  · rintro ⟨rest, hrest⟩
    obtain ⟨hne, rfl⟩ := restAfter?_eq_some_iff.1 hrest
    exact ⟨hne, Text.isPrefix_append space rest⟩

theorem isSome_restAfter?_iff : (restAfter? space iri).isSome ↔ Fits space iri := by
  rw [Option.isSome_iff_exists, fits_iff_exists]

theorem Fits.of_append (hne : space ≠ "") (h : space ++ rest = iri) : Fits space iri :=
  fits_iff_exists.2 ⟨rest, restAfter?_eq_some_iff.2 ⟨hne, h⟩⟩

/-- Two namespaces of one length that fit one identifier are the same. -/
theorem Fits.eq_of_size_eq (h : Fits space iri) (h' : Fits space' iri)
    (hsize : space.utf8ByteSize = space'.utf8ByteSize) : space = space' := by
  obtain ⟨rest, hrest⟩ := Text.exists_append_of_isPrefix h.2
  obtain ⟨rest', hrest'⟩ := Text.exists_append_of_isPrefix h'.2
  have hbefore := Text.before?_append space rest
  rw [← hrest, hsize, hrest', Text.before?_append] at hbefore
  exact (Option.some.inj hbefore).symm

/-! ## The longest namespace -/

/-- A namespace that fits an identifier, and is as long as any that does. -/
structure LongestFit (bound : List String) (iri space : String) : Prop where
  mem : space ∈ bound
  fits : Fits space iri
  longest : ∀ other ∈ bound, Fits other iri → other.utf8ByteSize ≤ space.utf8ByteSize

theorem LongestFit.unique (h : LongestFit bound iri space) (h' : LongestFit bound iri space') :
    space = space' :=
  h.fits.eq_of_size_eq h'.fits
    (Nat.le_antisymm (h'.longest space h.mem h.fits) (h.longest space' h'.mem h'.fits))

theorem LongestFit.of_same_members (h : LongestFit bound iri space)
    (hsame : ∀ s, s ∈ bound' ↔ s ∈ bound) : LongestFit bound' iri space where
  mem := (hsame space).2 h.mem
  fits := h.fits
  longest other hother := h.longest other ((hsame other).1 hother)

/-- The prefix that is bound to a namespace, the last one if there are several. -/
def nameFor? (bs : List Binding) (space : String) : Option String :=
  ((bs.filter fun b => b.iri = space).map Binding.name).getLast?

theorem nameFor?_concat (bs : List Binding) (b : Binding) (space : String) :
    nameFor? (bs ++ [b]) space = if b.iri = space then some b.name else nameFor? bs space := by
  by_cases h : b.iri = space
  · simp [nameFor?, h]
  · simp [nameFor?, h]

theorem mem_of_nameFor? (h : nameFor? bs space = some name) : ⟨name, space⟩ ∈ bs := by
  obtain ⟨b, hb, rfl⟩ := List.mem_map.1 (List.mem_of_getLast? h)
  rw [List.mem_filter, decide_eq_true_iff] at hb
  rw [← hb.2]
  exact hb.1

theorem exists_nameFor? (h : space ∈ bs.map Binding.iri) :
    ∃ name, nameFor? bs space = some name := by
  obtain ⟨b, hb, hspace⟩ := List.mem_map.1 h
  have hmem : b.name ∈ (bs.filter fun b => b.iri = space).map Binding.name :=
    List.mem_map_of_mem (List.mem_filter.2 ⟨hb, decide_eq_true hspace⟩)
  exact ⟨_, List.getLast?_eq_some_getLast (List.ne_nil_of_mem hmem)⟩

theorem longest?_concat (iri : String) (bs : List Binding) (b : Binding) :
    longest? iri (bs ++ [b]) =
      if (restAfter? b.iri iri).isSome then
        match longest? iri bs with
        | some b' => if b.iri.utf8ByteSize < b'.iri.utf8ByteSize then some b' else some b
        | none => some b
      else longest? iri bs := by
  rw [longest?, List.foldl_append]
  rfl

/-- A binding that fits and is not shorter than those before it is taken. -/
theorem longest?_concat_of_fits (h : Fits b.iri iri)
    (hlongest : ∀ b' ∈ longest? iri bs, b'.iri.utf8ByteSize ≤ b.iri.utf8ByteSize) :
    longest? iri (bs ++ [b]) = some b := by
  rw [longest?_concat, if_pos (isSome_restAfter?_iff.2 h)]
  cases hbest : longest? iri bs with
  | none => rfl
  | some b' => exact if_neg (Nat.not_lt.2 (hlongest b' hbest))

/-- A binding that does not fit, or is shorter than one before it, is passed over. -/
theorem longest?_concat_of_not
    (h : ¬(Fits b.iri iri ∧ ∀ b' ∈ longest? iri bs, b'.iri.utf8ByteSize ≤ b.iri.utf8ByteSize)) :
    longest? iri (bs ++ [b]) = longest? iri bs := by
  rw [longest?_concat]
  by_cases hfits : (restAfter? b.iri iri).isSome
  · rw [if_pos hfits]
    cases hbest : longest? iri bs with
    | none => exact absurd ⟨isSome_restAfter?_iff.1 hfits, by simp [hbest]⟩ h
    | some b' =>
      refine if_pos (Nat.lt_of_not_le fun hle => h ⟨isSome_restAfter?_iff.1 hfits, ?_⟩)
      simpa [hbest] using hle
  · rw [if_neg hfits]

theorem forall_mem_concat {P : String → Prop} :
    (∀ space ∈ (bs ++ [b]).map Binding.iri, P space) ↔
      (∀ space ∈ bs.map Binding.iri, P space) ∧ P b.iri := by
  simp [or_imp, forall_and]

/-- The scan finds nothing where nothing fits, and otherwise the longest namespace with the
last of its prefixes. -/
theorem longest?_cases (iri : String) (bs : List Binding) :
    (longest? iri bs = none ∧ ∀ space ∈ bs.map Binding.iri, ¬Fits space iri) ∨
    (∃ b, longest? iri bs = some b ∧ LongestFit (bs.map Binding.iri) iri b.iri ∧
      nameFor? bs b.iri = some b.name) := by
  -- A binding comes behind the others, so the induction takes them from the end.
  induction bs using List.reverseRecOn with
  | nil => exact .inl ⟨rfl, fun _ h => absurd h List.not_mem_nil⟩
  | append_singleton bs c ih =>
    by_cases htaken : Fits c.iri iri ∧
        ∀ b' ∈ longest? iri bs, b'.iri.utf8ByteSize ≤ c.iri.utf8ByteSize
    · obtain ⟨hfits, hlonger⟩ := htaken
      have hbefore : ∀ space ∈ bs.map Binding.iri, Fits space iri →
          space.utf8ByteSize ≤ c.iri.utf8ByteSize := by
        intro space hspace hspacefits
        rcases ih with ⟨-, hnone⟩ | ⟨b, hb, hlongest, -⟩
        · exact absurd hspacefits (hnone space hspace)
        · exact Nat.le_trans (hlongest.longest space hspace hspacefits) (hlonger b hb)
      refine .inr ⟨c, longest?_concat_of_fits hfits hlonger, ⟨by simp, hfits, ?_⟩, ?_⟩
      · exact forall_mem_concat.2 ⟨hbefore, fun _ => Nat.le_refl _⟩
      · rw [nameFor?_concat, if_pos rfl]
    · rw [longest?_concat_of_not htaken]
      rcases ih with ⟨hbest, hnone⟩ | ⟨b, hb, hlongest, hname⟩
      · have hnot : ¬Fits c.iri iri := fun hfits => htaken ⟨hfits, by simp [hbest]⟩
        exact .inl ⟨hbest, forall_mem_concat.2 ⟨hnone, hnot⟩⟩
      · have hshorter : Fits c.iri iri → c.iri.utf8ByteSize < b.iri.utf8ByteSize := by
          intro hfits
          refine Nat.lt_of_not_le fun hle => htaken ⟨hfits, ?_⟩
          simpa [hb] using hle
        have hne : c.iri ≠ b.iri := by
          intro heq
          have hlt := hshorter (heq ▸ hlongest.fits)
          rw [heq] at hlt
          exact Nat.lt_irrefl _ hlt
        refine .inr ⟨b, hb, ⟨by simp [hlongest.mem], hlongest.fits, ?_⟩, ?_⟩
        · exact forall_mem_concat.2
            ⟨hlongest.longest, fun hfits => Nat.le_of_lt (hshorter hfits)⟩
        · rw [nameFor?_concat, if_neg hne, hname]

theorem longest?_eq_none_iff :
    longest? iri bs = none ↔ ∀ space ∈ bs.map Binding.iri, ¬Fits space iri := by
  rcases longest?_cases iri bs with ⟨hbest, hnone⟩ | ⟨b, hb, hlongest, -⟩
  · exact ⟨fun _ => hnone, fun _ => hbest⟩
  · rw [hb]
    exact ⟨fun h => (nomatch h), fun h => absurd hlongest.fits (h b.iri hlongest.mem)⟩

theorem longest?_eq_some_iff :
    longest? iri bs = some b ↔
      LongestFit (bs.map Binding.iri) iri b.iri ∧ nameFor? bs b.iri = some b.name := by
  rcases longest?_cases iri bs with ⟨hbest, hnone⟩ | ⟨c, hc, hlongest, hname⟩
  · rw [hbest]
    exact ⟨fun h => (nomatch h), fun h => absurd h.1.fits (hnone b.iri h.1.mem)⟩
  · rw [hc]
    constructor
    · rintro ⟨⟩
      exact ⟨hlongest, hname⟩
    · rintro ⟨hlongest', hname'⟩
      have hiri : c.iri = b.iri := hlongest.unique hlongest'
      rw [← hiri, hname] at hname'
      have hb : c = b := by
        cases b
        cases c
        simp_all
      rw [hb]

/-! ## The short form -/

def spaces (ns : Namespaces) : List String := ns.bindings.map Binding.iri

/-- An identifier is abbreviated by the longest namespace that fits, else by the vocabulary if
something remains after it, and else it stays as it is. -/
inductive ShortForm (ns : Namespaces) (iri : String) : String → Prop where
  | qualified {space name rest : String} (longest : LongestFit ns.spaces iri space)
      (named : nameFor? ns.bindings space = some name) (splits : space ++ rest = iri) :
      ShortForm ns iri (name ++ ":" ++ rest)
  | bare {vocabulary rest : String} (none_fits : ∀ space ∈ ns.spaces, ¬Fits space iri)
      (chosen : ns.vocabulary = some vocabulary) (nonempty : vocabulary ≠ "")
      (splits : vocabulary ++ rest = iri) (remains : rest ≠ "") : ShortForm ns iri rest
  | whole (none_fits : ∀ space ∈ ns.spaces, ¬Fits space iri)
      (nothing_remains : ∀ vocabulary rest, ns.vocabulary = some vocabulary → vocabulary ≠ "" →
        vocabulary ++ rest = iri → rest = "") : ShortForm ns iri iri

theorem compact_of_longestFit (h : LongestFit ns.spaces iri space)
    (hname : nameFor? ns.bindings space = some name) (hrest : space ++ rest = iri) :
    ns.compact iri = name ++ ":" ++ rest := by
  have hbest : longest? iri ns.bindings = some ⟨name, space⟩ :=
    longest?_eq_some_iff.2 ⟨h, hname⟩
  have hafter : restAfter? space iri = some rest := restAfter?_eq_some_iff.2 ⟨h.fits.1, hrest⟩
  rw [compact, hbest]
  show name ++ ":" ++ (restAfter? space iri).getD "" = _
  rw [hafter, Option.getD_some]

theorem compact_of_none_fits (h : ∀ space ∈ ns.spaces, ¬Fits space iri) :
    ns.compact iri = compactByVocabulary ns.vocabulary iri := by
  rw [compact, longest?_eq_none_iff.2 h]

theorem compactByVocabulary_of_remains {vocabulary : String} (hne : vocabulary ≠ "")
    (hrest : vocabulary ++ rest = iri) (hremains : rest ≠ "") :
    compactByVocabulary (some vocabulary) iri = rest := by
  have hafter : restAfter? vocabulary iri = some rest := restAfter?_eq_some_iff.2 ⟨hne, hrest⟩
  rw [compactByVocabulary, hafter]
  exact if_neg hremains

theorem compactByVocabulary_of_nothing_remains {vocabulary : Option String}
    (h : ∀ v rest, vocabulary = some v → v ≠ "" → v ++ rest = iri → rest = "") :
    compactByVocabulary vocabulary iri = iri := by
  cases vocabulary with
  | none => rfl
  | some v =>
    rw [compactByVocabulary]
    cases hafter : restAfter? v iri with
    | none => rfl
    | some rest =>
      obtain ⟨hne, hrest⟩ := restAfter?_eq_some_iff.1 hafter
      exact if_pos (h v rest rfl hne hrest)

theorem ShortForm.compact_eq {short : String} (h : ShortForm ns iri short) :
    ns.compact iri = short := by
  cases h with
  | qualified hlongest hname hrest => exact compact_of_longestFit hlongest hname hrest
  | bare hnone hvocabulary hne hrest hremains =>
    rw [compact_of_none_fits hnone, hvocabulary]
    exact compactByVocabulary_of_remains hne hrest hremains
  | whole hnone hnothing =>
    rw [compact_of_none_fits hnone]
    exact compactByVocabulary_of_nothing_remains hnothing

theorem shortForm_compact (ns : Namespaces) (iri : String) : ShortForm ns iri (ns.compact iri) := by
  rcases longest?_cases iri ns.bindings with ⟨-, hnone⟩ | ⟨b, -, hlongest, hname⟩
  · by_cases hremains : ∃ vocabulary rest, ns.vocabulary = some vocabulary ∧ vocabulary ≠ "" ∧
        vocabulary ++ rest = iri ∧ rest ≠ ""
    · obtain ⟨vocabulary, rest, hvocabulary, hne, hrest, hrestne⟩ := hremains
      have hshort : ShortForm ns iri rest := .bare hnone hvocabulary hne hrest hrestne
      rwa [hshort.compact_eq]
    · have hshort : ShortForm ns iri iri := by
        refine .whole hnone fun vocabulary rest hvocabulary hne hrest => ?_
        by_contra hrestne
        exact hremains ⟨vocabulary, rest, hvocabulary, hne, hrest, hrestne⟩
      rwa [hshort.compact_eq]
  · obtain ⟨rest, hrest⟩ := fits_iff_exists.1 hlongest.fits
    have hshort : ShortForm ns iri (b.name ++ ":" ++ rest) :=
      .qualified hlongest hname (restAfter?_eq_some_iff.1 hrest).2
    rwa [hshort.compact_eq]

theorem compact_eq_iff {short : String} : ns.compact iri = short ↔ ShortForm ns iri short :=
  ⟨fun h => h ▸ shortForm_compact ns iri, ShortForm.compact_eq⟩

/-! ## Cuts -/

def compactByVocabularyCut? (vocabulary : Option String) (iri : String) : Option String :=
  match vocabulary with
  | none => some iri
  | some v =>
    if v ≠ "" ∧ iri.startsWith v ∧ v.utf8ByteSize < iri.utf8ByteSize then
      Text.after? iri v.utf8ByteSize
    else some iri

/-- `compact`, with a cut at the length of the namespace. -/
def compactCut? (ns : Namespaces) (iri : String) : Option String :=
  match longest? iri ns.bindings with
  | some b => (Text.after? iri b.iri.utf8ByteSize).map fun rest => b.name ++ ":" ++ rest
  | none => compactByVocabularyCut? ns.vocabulary iri

theorem compactByVocabularyCut?_eq (vocabulary : Option String) (iri : String) :
    compactByVocabularyCut? vocabulary iri = some (compactByVocabulary vocabulary iri) := by
  cases vocabulary with
  | none => rfl
  | some v =>
    by_cases hv : v ≠ "" ∧ iri.startsWith v ∧ v.utf8ByteSize < iri.utf8ByteSize
    · rw [compactByVocabularyCut?, if_pos hv]
      obtain ⟨hne, hstart, hlonger⟩ := hv
      obtain ⟨rest, rfl⟩ := Text.exists_append_of_isPrefix (String.startsWith_string_iff.1 hstart)
      have hremains : rest ≠ "" := by
        rintro rfl
        rw [String.append_empty] at hlonger
        exact Nat.lt_irrefl _ hlonger
      rw [Text.after?_append, compactByVocabulary_of_remains hne rfl hremains]
    · rw [compactByVocabularyCut?, if_neg hv, compactByVocabulary_of_nothing_remains]
      rintro _ rest ⟨⟩ hne rfl
      by_contra hremains
      have hsize : rest.utf8ByteSize ≠ 0 := mt String.utf8ByteSize_eq_zero_iff.1 hremains
      refine hv ⟨hne, String.startsWith_string_iff.2 (Text.isPrefix_append v rest), ?_⟩
      rw [String.utf8ByteSize_append]
      omega

theorem compactCut?_eq (ns : Namespaces) (iri : String) :
    ns.compactCut? iri = some (ns.compact iri) := by
  rcases longest?_cases iri ns.bindings with ⟨hbest, hnone⟩ | ⟨b, hb, hlongest, hname⟩
  · rw [compact_of_none_fits hnone, compactCut?, hbest]
    exact compactByVocabularyCut?_eq ns.vocabulary iri
  · obtain ⟨rest, rfl⟩ := Text.exists_append_of_isPrefix hlongest.fits.2
    rw [compact_of_longestFit hlongest hname rfl, compactCut?, hb]
    show (Text.after? (b.iri ++ rest) b.iri.utf8ByteSize).map _ = _
    rw [Text.after?_append, Option.map_some]

/-! ## Orders of registration -/

/-- The namespace that is taken off an identifier, and what remains of it. -/
def split? (ns : Namespaces) (iri : String) : Option (String × String) :=
  (longest? iri ns.bindings).bind fun b => (restAfter? b.iri iri).map fun rest => (b.iri, rest)

theorem split?_eq_some_iff :
    ns.split? iri = some (space, rest) ↔ LongestFit ns.spaces iri space ∧ space ++ rest = iri := by
  rw [split?, Option.bind_eq_some_iff]
  constructor
  · rintro ⟨b, hb, hrest⟩
    obtain ⟨t, ht, heq⟩ := Option.map_eq_some_iff.1 hrest
    cases heq
    exact ⟨(longest?_eq_some_iff.1 hb).1, (restAfter?_eq_some_iff.1 ht).2⟩
  · rintro ⟨hlongest, hrest⟩
    rcases longest?_cases iri ns.bindings with ⟨-, hnone⟩ | ⟨b, hb, hlongest', -⟩
    · exact absurd hlongest.fits (hnone space hlongest.mem)
    · have hspace : b.iri = space := hlongest'.unique hlongest
      refine ⟨b, hb, ?_⟩
      rw [hspace, restAfter?_eq_some_iff.2 ⟨hlongest.fits.1, hrest⟩, Option.map_some]

theorem mem_spaces_of_same_bindings (h : ∀ b, b ∈ other.bindings ↔ b ∈ ns.bindings) (s : String) :
    s ∈ other.spaces ↔ s ∈ ns.spaces := by
  rw [spaces, spaces, List.mem_map, List.mem_map]
  exact exists_congr fun b => and_congr_left' (h b)

theorem split?_of_same_bindings (h : ∀ b, b ∈ other.bindings ↔ b ∈ ns.bindings) (iri : String) :
    other.split? iri = ns.split? iri := by
  have hspaces := mem_spaces_of_same_bindings h
  refine Option.ext fun found => ?_
  obtain ⟨space, rest⟩ := found
  rw [split?_eq_some_iff, split?_eq_some_iff]
  refine and_congr_left' ⟨fun hother => ?_, fun hns => ?_⟩
  · exact hother.of_same_members fun s => (hspaces s).symm
  · exact hns.of_same_members hspaces

/-- The prefix is the only thing that the order of the bindings decides. -/
theorem compact_of_same_bindings (h : ∀ b, b ∈ other.bindings ↔ b ∈ ns.bindings)
    (hvocabulary : other.vocabulary = ns.vocabulary)
    (hname : ∀ space rest, ns.split? iri = some (space, rest) →
      ∀ b ∈ ns.bindings, ∀ c ∈ ns.bindings, b.iri = space → c.iri = space → b = c) :
    other.compact iri = ns.compact iri := by
  have hspaces := mem_spaces_of_same_bindings h
  have hshort := shortForm_compact ns iri
  generalize ns.compact iri = short at hshort
  refine ShortForm.compact_eq ?_
  cases hshort with
  | @qualified space name rest hlongest hnamed hsplits =>
    have hlongest' := hlongest.of_same_members hspaces
    obtain ⟨name', hnamed'⟩ := exists_nameFor? hlongest'.mem
    have hother := (h _).1 (mem_of_nameFor? hnamed')
    have hbinding := hname space rest (split?_eq_some_iff.2 ⟨hlongest, hsplits⟩)
      _ hother _ (mem_of_nameFor? hnamed) rfl rfl
    rw [(Binding.mk.inj hbinding).1] at hnamed'
    exact .qualified hlongest' hnamed' hsplits
  | bare hnone hchosen hnonempty hsplits hremains =>
    exact .bare (fun space hspace => hnone space ((hspaces space).1 hspace))
      (hvocabulary.trans hchosen) hnonempty hsplits hremains
  | whole hnone hnothing =>
    rw [← hvocabulary] at hnothing
    exact .whole (fun space hspace => hnone space ((hspaces space).1 hspace)) hnothing

/-- Compaction takes the longest namespace that fits off an identifier and puts the last of its
prefixes in its place, or takes the vocabulary off, and loses nothing.  No cut that this needs
fails.  In whatever order the bindings were made, the same namespace is taken off with the same
rest, and the short form is the same if one prefix only is bound to that namespace. -/
theorem compact_by_longest (ns : Namespaces) (iri : String) :
    (∀ short, ns.compact iri = short ↔ ShortForm ns iri short) ∧
    ns.compactCut? iri = some (ns.compact iri) ∧
    (∀ space rest, ns.split? iri = some (space, rest) ↔
      LongestFit ns.spaces iri space ∧ space ++ rest = iri) ∧
    ∀ other : Namespaces, (∀ b, b ∈ other.bindings ↔ b ∈ ns.bindings) →
      other.vocabulary = ns.vocabulary →
      other.split? iri = ns.split? iri ∧
      ((∀ space rest, ns.split? iri = some (space, rest) →
          ∀ b ∈ ns.bindings, ∀ c ∈ ns.bindings, b.iri = space → c.iri = space → b = c) →
        other.compact iri = ns.compact iri) :=
  ⟨fun _ => compact_eq_iff, compactCut?_eq ns iri, fun _ _ => split?_eq_some_iff,
    fun _ hsame hvocabulary => ⟨split?_of_same_bindings hsame iri,
      compact_of_same_bindings hsame hvocabulary⟩⟩

/-- Two prefixes of one namespace, and one of a namespace inside it. -/
def carParts : Namespaces :=
  ⟨[⟨"car", "urn:car#"⟩, ⟨"auto", "urn:car#"⟩, ⟨"part", "urn:car#part/"⟩], some "urn:", by decide⟩

def carPartsRearranged : Namespaces :=
  ⟨[⟨"part", "urn:car#part/"⟩, ⟨"auto", "urn:car#"⟩, ⟨"car", "urn:car#"⟩], some "urn:", by decide⟩

/-- The identifier in the inner namespace has one short form; that in the outer one takes the
last prefix, in either order. -/
theorem compact_by_longest_carParts :
    (∀ b, b ∈ carPartsRearranged.bindings ↔ b ∈ carParts.bindings) ∧
    carPartsRearranged.vocabulary = carParts.vocabulary ∧
    carParts.split? "urn:car#part/wheel" = some ("urn:car#part/", "wheel") ∧
    carPartsRearranged.compact "urn:car#part/wheel" = carParts.compact "urn:car#part/wheel" ∧
    carParts.compact "urn:car#wheel" = "auto:wheel" ∧
    carPartsRearranged.compact "urn:car#wheel" = "car:wheel" ∧
    carParts.compact "urn:van" = "van" := by
  have hperm : carPartsRearranged.bindings.Perm carParts.bindings := by decide
  have hsame : ∀ b, b ∈ carPartsRearranged.bindings ↔ b ∈ carParts.bindings :=
    fun _ => hperm.mem_iff
  have hsplit : carParts.split? "urn:car#part/wheel" = some ("urn:car#part/", "wheel") := by decide
  have hwheel := ((compact_by_longest carParts "urn:car#part/wheel").2.2.2
    carPartsRearranged hsame rfl).2
  refine ⟨hsame, rfl, hsplit, hwheel ?_, by decide, by decide, by decide⟩
  intro space rest hspace
  rw [hsplit] at hspace
  cases hspace
  decide

end Namespaces
end OntologyModel

/-
Compacting what is compact already.

A short form is a text like any other, and may start with a namespace again or go on where
the vocabulary ends; then it is compacted once more.  It is left alone just if nothing is
taken off it, or if what is taken off is put back, the longest namespace that it starts with
being its own prefix and a colon.  Whether this holds of all short forms is decided by the
identifiers in which what is put in place of a namespace, or of the vocabulary, overlaps with
a text at which compaction sets in; they are called critical, as are overlaps of rewriting rules.
-/
import OntologyModel.Proofs.Extension

namespace OntologyModel
namespace Namespaces

variable {ns : Namespaces} {bound : List String}
variable {iri s t u space rest name vocabulary off put : String}

/-! ## Texts that are left alone -/

inductive Settled (ns : Namespaces) (s : String) : Prop where
  | untouched (none_fits : ∀ space ∈ ns.spaces, ¬Fits space s)
      (nothing_remains : ∀ vocabulary rest, ns.vocabulary = some vocabulary → vocabulary ≠ "" →
        vocabulary ++ rest = s → rest = "")
  | put_back {name : String} (longest : LongestFit ns.spaces s (name ++ ":"))
      (named : nameFor? ns.bindings (name ++ ":") = some name)

theorem compact_eq_self_iff : ns.compact s = s ↔ Settled ns s := by
  constructor
  · intro h
    have hshort := shortForm_compact ns s
    generalize ns.compact s = short at hshort h
    cases hshort with
    | @qualified space name rest hlongest hnamed hsplits =>
      have hspace : name ++ ":" = space := by
        rw [← hsplits] at h
        exact (String.append_left_inj rest).1 h
      rw [← hspace] at hlongest hnamed
      exact .put_back hlongest hnamed
    | bare _ _ hnonempty hsplits _ =>
      rw [h] at hsplits
      exact absurd (String.append_eq_right_iff.1 hsplits) hnonempty
    | whole hnone hnothing => exact .untouched hnone hnothing
  · intro h
    cases h with
    | untouched hnone hnothing => exact compact_eq_iff.2 (.whole hnone hnothing)
    | @put_back name hlongest hnamed =>
      obtain ⟨rest, hrest⟩ := Text.exists_append_of_isPrefix hlongest.fits.2
      rw [compact_of_longestFit hlongest hnamed hrest.symm, hrest]

/-! ## Starts of identifiers -/

theorem Fits.append (h : Fits space s) (t : String) : Fits space (s ++ t) := by
  obtain ⟨rest, rfl⟩ := Text.exists_append_of_isPrefix h.2
  exact .of_append h.1 (String.append_assoc ..).symm

theorem LongestFit.take (h : LongestFit bound (space ++ (t ++ u)) space) :
    LongestFit bound (space ++ t) space where
  mem := h.mem
  fits := .of_append h.fits.1 rfl
  longest other hother hfits := by
    have hlonger := hfits.append u
    rw [String.append_assoc] at hlonger
    exact h.longest other hother hlonger

/-- A namespace that is taken off an identifier is taken off its starts as well. -/
theorem compact_take_of_longestFit (h : LongestFit ns.spaces (space ++ (t ++ u)) space)
    (hname : nameFor? ns.bindings space = some name) :
    ns.compact (space ++ t) = name ++ ":" ++ t :=
  compact_of_longestFit h.take hname rfl

theorem compact_take_of_none_fits (h : ∀ space ∈ ns.spaces, ¬Fits space (vocabulary ++ (t ++ u)))
    (hvocabulary : ns.vocabulary = some vocabulary) (hne : vocabulary ≠ "") (ht : t ≠ "") :
    ns.compact (vocabulary ++ t) = t := by
  refine compact_eq_iff.2 (.bare (fun space hspace hfits => ?_) hvocabulary hne rfl ht)
  have hlonger := hfits.append u
  rw [String.append_assoc] at hlonger
  exact h space hspace hlonger

/-- Of two ways to cut a text, one cuts it further on. -/
theorem append_eq_append_cases {a b c d : String} (h : a ++ b = c ++ d) :
    (∃ t, a = c ++ t ∧ d = t ++ b) ∨ (∃ t, c = a ++ t ∧ b = t ++ d) := by
  have ha : a.toList <+: (c ++ d).toList := h ▸ Text.isPrefix_append a b
  rcases List.prefix_or_prefix_of_prefix (Text.isPrefix_append c d) ha with hca | hac
  · obtain ⟨t, rfl⟩ := Text.exists_append_of_isPrefix hca
    rw [String.append_assoc] at h
    exact .inl ⟨t, rfl, ((String.append_right_inj c).1 h).symm⟩
  · obtain ⟨t, rfl⟩ := Text.exists_append_of_isPrefix hac
    rw [String.append_assoc] at h
    exact .inr ⟨t, rfl, (String.append_right_inj a).1 h⟩

theorem exists_singleton_append (h : s ≠ "") : ∃ c t, s = String.singleton c ++ t := by
  cases hs : s.toList with
  | nil => exact absurd (String.toList_eq_nil_iff.1 hs) h
  | cons c t =>
    refine ⟨c, String.ofList t, ?_⟩
    rw [← String.toList_inj, hs, String.toList_append, String.toList_singleton,
      String.toList_ofList, List.singleton_append]

/-! ## Overlaps -/

/-- What compaction takes off an identifier, and what it puts in its place. -/
inductive Replaces (ns : Namespaces) : String → String → Prop where
  | byName {space name : String} (named : nameFor? ns.bindings space = some name)
      (nonempty : space ≠ "") : Replaces ns space (name ++ ":")
  | byNothing {vocabulary : String} (chosen : ns.vocabulary = some vocabulary)
      (nonempty : vocabulary ≠ "") : Replaces ns vocabulary ""

/-- A text at which compaction sets in: a namespace, or the vocabulary with a character after
it. -/
inductive Trigger (ns : Namespaces) : String → Prop where
  | space {space : String} (mem : space ∈ ns.spaces) (nonempty : space ≠ "") : Trigger ns space
  | vocabulary {vocabulary : String} (chosen : ns.vocabulary = some vocabulary)
      (nonempty : vocabulary ≠ "") (c : Char) : Trigger ns (vocabulary ++ String.singleton c)

/-- An identifier whose short form is just enough to be compacted once more: a namespace by
itself, or one that goes on until what was put in place completes a trigger. -/
inductive Critical (ns : Namespaces) : String → Prop where
  | space {space : String} (mem : space ∈ ns.spaces) (nonempty : space ≠ "") : Critical ns space
  | overlap {off put rest : String} (replaces : Replaces ns off put)
      (trigger : Trigger ns (put ++ rest)) : Critical ns (off ++ rest)

theorem Trigger.ne_empty (h : Trigger ns s) : s ≠ "" := by
  cases h with
  | space _ hne => exact hne
  | vocabulary _ hne c => exact fun hempty => hne (String.append_eq_empty_iff.1 hempty).1

/-- A text that is not left alone starts with a trigger, and none of its starts that reach as
far as the trigger is left alone. -/
theorem exists_trigger (h : ns.compact s ≠ s) :
    ∃ w r, Trigger ns w ∧ s = w ++ r ∧ ∀ t u, r = t ++ u → ns.compact (w ++ t) ≠ w ++ t := by
  have hshort := shortForm_compact ns s
  generalize ns.compact s = short at hshort h
  cases hshort with
  | @qualified space name rest hlongest hnamed hsplits =>
    refine ⟨space, rest, .space hlongest.mem hlongest.fits.1, hsplits.symm, ?_⟩
    rintro t u rfl hsame
    rw [← hsplits] at hlongest h
    rw [compact_take_of_longestFit hlongest hnamed] at hsame
    have hspace : name ++ ":" = space := (String.append_left_inj t).1 hsame
    exact h (by rw [hspace])
  | @bare vocabulary rest hnone hchosen hnonempty hsplits hremains =>
    obtain ⟨c, r, rfl⟩ := exists_singleton_append hremains
    refine ⟨vocabulary ++ String.singleton c, r, .vocabulary hchosen hnonempty c, ?_, ?_⟩
    · rw [← hsplits, String.append_assoc]
    · rintro t u rfl hsame
      have hsplit : vocabulary ++ (String.singleton c ++ t ++ u) = s := by
        rw [String.append_assoc, hsplits]
      rw [← hsplit] at hnone
      have hc : String.singleton c ++ t ≠ "" :=
        fun hempty => String.singleton_ne_empty (String.append_eq_empty_iff.1 hempty).1
      rw [String.append_assoc, compact_take_of_none_fits hnone hchosen hnonempty hc] at hsame
      exact hnonempty (String.append_eq_right_iff.1 hsame.symm)
  | whole _ _ => exact absurd rfl h

/-- If the short form of an identifier is not left alone, then that of a critical one is not.
The critical one is the identifier without what follows the trigger in its short form. -/
theorem exists_critical (hreplaces : Replaces ns off put) (hempty : off ∈ ns.spaces ∨ put = "")
    (htake : ∀ t u, rest = t ++ u → off ∈ ns.spaces ∨ t ≠ "" → ns.compact (off ++ t) = put ++ t)
    (h : ns.compact (put ++ rest) ≠ put ++ rest) :
    ∃ iri, Critical ns iri ∧ ns.compact (ns.compact iri) ≠ ns.compact iri := by
  obtain ⟨w, r, htrigger, hsplit, hagain⟩ := exists_trigger h
  rcases append_eq_append_cases hsplit with ⟨t, hput, hr⟩ | ⟨t, hw, hrest⟩
  · have hmem : off ∈ ns.spaces := by
      refine hempty.resolve_right fun hnothing => htrigger.ne_empty ?_
      rw [hnothing] at hput
      exact (String.append_eq_empty_iff.1 hput.symm).1
    have hoff : ns.compact off = put := by
      have htaken := htake "" rest (String.empty_append).symm (.inl hmem)
      rwa [String.append_empty, String.append_empty] at htaken
    refine ⟨off, .space hmem ?_, ?_⟩
    · cases hreplaces <;> assumption
    · rw [hoff, hput]
      exact hagain t rest hr
  · have htaken : ns.compact (off ++ t) = w := by
      rw [hw]
      refine htake t r hrest (hempty.imp_right fun hnothing => ?_)
      rw [hnothing, String.empty_append] at hw
      exact hw ▸ htrigger.ne_empty
    refine ⟨off ++ t, .overlap hreplaces (hw ▸ htrigger), ?_⟩
    rw [htaken]
    have hw' := hagain "" r (String.empty_append).symm
    rwa [String.append_empty] at hw'

/-- If the short forms of the critical identifiers are left alone, then all are. -/
theorem idempotent_of_critical
    (h : ∀ iri, Critical ns iri → ns.compact (ns.compact iri) = ns.compact iri) (iri : String) :
    ns.compact (ns.compact iri) = ns.compact iri := by
  by_contra hagain
  have hcritical : ∃ iri, Critical ns iri ∧ ns.compact (ns.compact iri) ≠ ns.compact iri := by
    have hshort := shortForm_compact ns iri
    generalize hcompact : ns.compact iri = short at hshort hagain
    cases hshort with
    | @qualified space name rest hlongest hnamed hsplits =>
      refine exists_critical (.byName hnamed hlongest.fits.1) (.inl hlongest.mem) ?_ hagain
      rintro t u rfl -
      rw [← hsplits] at hlongest
      exact compact_take_of_longestFit hlongest hnamed
    | @bare vocabulary rest hnone hchosen hnonempty hsplits _ =>
      rw [← String.empty_append (s := short)] at hagain
      refine exists_critical (.byNothing hchosen hnonempty) (.inr rfl) ?_ hagain
      rintro t u rfl hmem
      have ht : t ≠ "" := by
        refine hmem.resolve_left fun hbound => hnone vocabulary hbound ?_
        exact .of_append hnonempty hsplits
      rw [← hsplits] at hnone
      rw [String.empty_append]
      exact compact_take_of_none_fits hnone hchosen hnonempty ht
    | whole _ _ => exact absurd hcompact hagain
  obtain ⟨critical, hmem, hnot⟩ := hcritical
  exact hnot (h critical hmem)

/-- Without a vocabulary, and where no prefix and colon start a namespace, only the namespaces
themselves are critical. -/
theorem Critical.mem_spaces (h : Critical ns iri)
    (hvocabulary : ∀ vocabulary, ns.vocabulary = some vocabulary → vocabulary = "")
    (hapart : ∀ b ∈ ns.bindings, ∀ space ∈ ns.spaces, ¬(b.name ++ ":").toList <+: space.toList) :
    iri ∈ ns.spaces := by
  cases h with
  | space hmem _ => exact hmem
  | @overlap off put rest hreplaces htrigger =>
    exfalso
    cases hreplaces with
    | byNothing hchosen hne => exact hne (hvocabulary _ hchosen)
    | @byName name hnamed _ =>
      generalize hw : name ++ ":" ++ rest = w at htrigger
      cases htrigger with
      | vocabulary hchosen hne _ => exact hne (hvocabulary _ hchosen)
      | space hmem _ =>
        refine hapart _ (mem_of_nameFor? hnamed) w hmem ?_
        rw [← hw]
        exact Text.isPrefix_append (name ++ ":") rest

/-! ## Compacting twice -/

/-- The namespace of one prefix is another prefix and a colon. -/
def chained : Namespaces := empty.after [.register "ex" "http://example.org/", .register "h" "ex:"]

/-- A vocabulary that an identifier starts with twice. -/
def doubled : Namespaces := empty.after [.setVocabulary "urn:"]

theorem compact_not_idempotent :
    (chained.compact "http://example.org/a" = "ex:a" ∧ chained.compact "ex:a" = "h:a" ∧
      chained.compact (chained.compact "http://example.org/a") ≠
        chained.compact "http://example.org/a") ∧
    (doubled.compact "urn:urn:a" = "urn:a" ∧ doubled.compact "urn:a" = "a" ∧
      doubled.compact (doubled.compact "urn:urn:a") ≠ doubled.compact "urn:urn:a") := by
  decide

/-- Compacting twice is compacting once just where the short form is left alone: where it starts
with no namespace and does not go on after the vocabulary, or where its longest namespace is
its own prefix and a colon.  For all identifiers this holds just if it holds for the critical
ones. -/
theorem compact_idempotent_iff (ns : Namespaces) :
    (∀ iri, ns.compact (ns.compact iri) = ns.compact iri ↔ Settled ns (ns.compact iri)) ∧
    ((∀ iri, ns.compact (ns.compact iri) = ns.compact iri) ↔
      ∀ iri, Critical ns iri → ns.compact (ns.compact iri) = ns.compact iri) :=
  ⟨fun _ => compact_eq_self_iff, fun h iri _ => h iri, idempotent_of_critical⟩

/-- The common prefixes start no namespace, so that compacting twice is compacting once. -/
theorem compact_idempotent_iff_common :
    (∀ iri, Critical common iri → common.compact (common.compact iri) = common.compact iri) ∧
    (∀ iri, common.compact (common.compact iri) = common.compact iri) := by
  have hspaces : ∀ space ∈ common.spaces,
      common.compact (common.compact space) = common.compact space := by decide
  have hcritical : ∀ iri, Critical common iri →
      common.compact (common.compact iri) = common.compact iri := by
    intro iri h
    exact hspaces iri (h.mem_spaces (fun _ hchosen => (nomatch hchosen)) (by decide))
  exact ⟨hcritical, (compact_idempotent_iff common).2.2 hcritical⟩

end Namespaces
end OntologyModel

/-
What a change of a context does to short forms.

Bindings are only ever added behind those that are there, and the scan for the longest
namespace lets a later binding win a tie.  So a new binding matters to the identifiers that
its namespace overtakes, those that start with it and with no longer one, and to no others;
and a vocabulary matters only where no namespace fits.
-/
import OntologyModel.Proofs.Compaction
import OntologyModel.Proofs.Registration

namespace OntologyModel
namespace Namespaces

variable {ns ns' : Namespaces} {bs cs : List Binding} {bound : List String}
variable {iri space rest name taken : String}

/-- A namespace that fits an identifier, and is as long as any of those that are bound and do. -/
structure Overtakes (bound : List String) (space iri : String) : Prop where
  fits : Fits space iri
  longest : ∀ other ∈ bound, Fits other iri → other.utf8ByteSize ≤ space.utf8ByteSize

theorem overtakes_iff :
    Overtakes (bs.map Binding.iri) space iri ↔
      Fits space iri ∧ ∀ b ∈ longest? iri bs, b.iri.utf8ByteSize ≤ space.utf8ByteSize := by
  constructor
  · rintro ⟨hfits, hlongest⟩
    refine ⟨hfits, fun b hb => ?_⟩
    have hfit := (longest?_eq_some_iff.1 hb).1
    exact hlongest b.iri hfit.mem hfit.fits
  · rintro ⟨hfits, hbest⟩
    refine ⟨hfits, fun other hother hotherfits => ?_⟩
    rcases longest?_cases iri bs with ⟨-, hnone⟩ | ⟨b, hb, hlongest, -⟩
    · exact absurd hotherfits (hnone other hother)
    · exact Nat.le_trans (hlongest.longest other hother hotherfits) (hbest b hb)

/-- Bindings that overtake nothing leave the result of the scan as it is. -/
theorem longest?_append_of_not_overtakes
    (h : ∀ b ∈ cs, ¬Overtakes (bs.map Binding.iri) b.iri iri) :
    longest? iri (bs ++ cs) = longest? iri bs := by
  induction cs using List.reverseRecOn with
  | nil => rw [List.append_nil]
  | append_singleton cs c ih =>
    have hbefore : longest? iri (bs ++ cs) = longest? iri bs :=
      ih fun b hb => h b (List.mem_append_left _ hb)
    have hc : ¬Overtakes (bs.map Binding.iri) c.iri iri :=
      h c (List.mem_append_right _ (List.mem_singleton_self c))
    rw [overtakes_iff, ← hbefore] at hc
    rw [← List.append_assoc, longest?_concat_of_not hc, hbefore]

theorem compact_congr (h : longest? iri ns'.bindings = longest? iri ns.bindings)
    (hvocabulary : ns'.vocabulary = ns.vocabulary) : ns'.compact iri = ns.compact iri := by
  rw [compact, compact, h, hvocabulary]

/-! ## Registration -/

theorem apply_register_of_bound (h : ns.get? name = some taken) (space : String) :
    ((Change.register name space).apply ns).context = ns := by
  show (ns.registerAll [⟨name, space⟩]).context = ns
  rw [registerAll, register_of_bound h]
  by_cases hsame : taken = space
  · rw [if_pos hsame]
    rfl
  · rw [if_neg hsame]

theorem apply_register_of_unbound (h : ns.get? name = none) (space : String) :
    ((Change.register name space).apply ns).error = none ∧
      ((Change.register name space).apply ns).context.bindings = ns.bindings ++ [⟨name, space⟩] ∧
      ((Change.register name space).apply ns).context.vocabulary = ns.vocabulary := by
  obtain ⟨ns', hns', hbindings, hvocabulary⟩ := register_of_unbound h space
  have hleft : (Change.register name space).apply ns = ⟨ns', none⟩ := by
    show ns.registerAll [⟨name, space⟩] = _
    rw [registerAll, hns']
    rfl
  rw [hleft]
  exact ⟨rfl, hbindings, hvocabulary⟩

theorem compact_of_overtakes (hbindings : ns'.bindings = ns.bindings ++ [⟨name, space⟩])
    (h : Overtakes ns.spaces space iri) (hrest : space ++ rest = iri) :
    ns'.compact iri = name ++ ":" ++ rest := by
  obtain ⟨hfits, hbest⟩ := overtakes_iff.1 h
  have hscan : longest? iri ns'.bindings = some ⟨name, space⟩ := by
    rw [hbindings]
    exact longest?_concat_of_fits hfits hbest
  obtain ⟨hlongest, hname⟩ := longest?_eq_some_iff.1 hscan
  exact compact_of_longestFit hlongest hname hrest

/-! ## Runs of changes -/

/-- An identifier that some namespace fits keeps its short form through any run of changes in
which no namespace is bound that overtakes those that fit it. -/
theorem compact_after (changes : List Change) (hfits : ∃ space ∈ ns.spaces, Fits space iri)
    (h : ∀ b ∈ (ns.after changes).bindings, b ∉ ns.bindings → ¬Overtakes ns.spaces b.iri iri) :
    (ns.after changes).compact iri = ns.compact iri := by
  obtain ⟨added, hadded⟩ := isPrefix_after ns changes
  have hscan : longest? iri (ns.after changes).bindings = longest? iri ns.bindings := by
    rw [← hadded]
    refine longest?_append_of_not_overtakes fun b hb => h b ?_ ?_
    · rw [← hadded]
      exact List.mem_append_right _ hb
    · intro hmem
      have hnodup := (ns.after changes).nodup
      rw [← hadded, List.map_append, List.nodup_append] at hnodup
      exact hnodup.2.2 _ (List.mem_map_of_mem hmem) _ (List.mem_map_of_mem hb) rfl
  rcases longest?_cases iri ns.bindings with ⟨-, hnone⟩ | ⟨b, hb, -⟩
  · obtain ⟨space, hspace, hspacefits⟩ := hfits
    exact absurd hspacefits (hnone space hspace)
  · rw [compact, compact, hscan, hb]

/-! ## The frame of a change -/

/-- A registration that fails, or that repeats a prefix, changes no short form.  One that binds
a new prefix changes those only that start with its namespace and with no longer one, and they
get the new prefix.  A vocabulary changes those only that no namespace fits. -/
theorem compact_frame (ns : Namespaces) (iri : String) :
    (∀ name space left, (Change.register name space).apply ns = left →
      (left.error ≠ none → left.context.compact iri = ns.compact iri) ∧
      (ns.get? name ≠ none → left.context.compact iri = ns.compact iri) ∧
      (ns.get? name = none → left.error = none ∧
        (left.context.compact iri ≠ ns.compact iri → Overtakes ns.spaces space iri) ∧
        (Overtakes ns.spaces space iri →
          ∀ rest, space ++ rest = iri → left.context.compact iri = name ++ ":" ++ rest))) ∧
    (∀ vocabulary, (ns.setVocabulary vocabulary).compact iri ≠ ns.compact iri →
      ∀ space ∈ ns.spaces, ¬Fits space iri) := by
  refine ⟨?_, ?_⟩
  · rintro name space left rfl
    have hbound : ns.get? name ≠ none →
        ((Change.register name space).apply ns).context.compact iri = ns.compact iri := by
      intro hget
      obtain ⟨taken, htaken⟩ := Option.ne_none_iff_exists'.1 hget
      rw [apply_register_of_bound htaken]
    refine ⟨fun herror => hbound fun hget => ?_, hbound, fun hget => ?_⟩
    · exact herror (apply_register_of_unbound hget space).1
    · obtain ⟨herror, hbindings, hvocabulary⟩ := apply_register_of_unbound hget space
      refine ⟨herror, fun hchanged => ?_, fun hover rest hrest => ?_⟩
      · by_contra hnot
        refine hchanged (compact_congr ?_ hvocabulary)
        rw [hbindings]
        refine longest?_append_of_not_overtakes fun b hb => ?_
        rw [List.mem_singleton.1 hb]
        exact hnot
      · exact compact_of_overtakes hbindings hover hrest
  · intro vocabulary hchanged space hspace hfits
    refine hchanged ?_
    exact compact_after [.setVocabulary vocabulary] ⟨space, hspace, hfits⟩ fun b hb hnew =>
      absurd hb hnew

/-- A third prefix for a namespace takes it over; the first one, made again, does not. -/
theorem compact_frame_carParts :
    (carParts.get? "van" = none ∧ Overtakes carParts.spaces "urn:car#" "urn:car#wheel" ∧
      ((Change.register "van" "urn:car#").apply carParts).context.compact "urn:car#wheel" =
        "van:wheel") ∧
    (carParts.get? "car" ≠ none ∧
      ((Change.register "car" "urn:car#").apply carParts).context.compact "urn:car#wheel" =
        "auto:wheel") ∧
    (((Change.register "car" "urn:van#").apply carParts).error ≠ none ∧
      ((Change.register "car" "urn:van#").apply carParts).context.compact "urn:car#wheel" =
        "auto:wheel") := by
  have hframe := (compact_frame carParts "urn:car#wheel").1
  have hnew : carParts.get? "van" = none := by decide
  have hbound : carParts.get? "car" ≠ none := by decide
  have hfails : ((Change.register "car" "urn:van#").apply carParts).error ≠ none := by decide
  have hover : Overtakes carParts.spaces "urn:car#" "urn:car#wheel" := ⟨by decide, by decide⟩
  have hbefore : carParts.compact "urn:car#wheel" = "auto:wheel" := by decide
  refine ⟨⟨hnew, hover, ?_⟩, ⟨hbound, ?_⟩, ⟨hfails, ?_⟩⟩
  · exact ((hframe "van" "urn:car#" _ rfl).2.2 hnew).2.2 hover "wheel" (by decide)
  · exact ((hframe "car" "urn:car#" _ rfl).2.1 hbound).trans hbefore
  · exact ((hframe "car" "urn:van#" _ rfl).1 hfails).trans hbefore

end Namespaces
end OntologyModel

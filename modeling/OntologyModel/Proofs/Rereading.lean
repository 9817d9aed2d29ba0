/-
What is read of a renamed dataset.

Enumerations and classes are read as before, and each class with the same properties.
Those of shapes with an IRI keep their places in front; those of anonymous shapes come
after them in the order of the new ids.
-/
import OntologyModel.Proofs.Renaming
import OntologyModel.Proofs.Uniqueness
import Mathlib.Data.List.Perm.Basic

namespace OntologyModel

open Vocabulary
open Dataset (Resembles)

attribute [ext] ClassFacts Kinds

variable {d d' : Dataset} {m : Metadata} {f : String → String}

/-! ## Datasets that resemble each other -/

theorem Kinds.AreOf.eq_of_resembles {k k' : Kinds} (h : Resembles m d d') (hk : k.AreOf d)
    (hk' : k'.AreOf d') (he : ∀ e ∈ k.enums, d.DescribesEnum e)
    (he' : ∀ e ∈ k'.enums, d'.DescribesEnum e) : k = k' := by
  have hids : k.enumIds = k'.enumIds := by
    refine Text.eq_of_pairwise_lt hk.enums_ascending hk'.enums_ascending fun id => ?_
    rw [hk.mem_enumIds, hk'.mem_enumIds, h.isEnumeration_iff]
  have henums : List.Forall₂ Eq k.enums k'.enums :=
    Text.forall₂_of_map_eq hids fun e hmem e' hmem' =>
      (he e hmem).unique ((he' e' hmem').congr h.symm)
  rw [List.forall₂_eq_eq_eq] at henums
  refine Kinds.ext henums ?_
  refine Text.eq_of_pairwise_lt hk.classes_ascending hk'.classes_ascending fun id => ?_
  rw [hk.mem_classIds, hk'.mem_classIds, h.isStructural_iff]

/-- A class reads the same in both datasets, except for the order of its shapes. -/
theorem Dataset.DescribesClass.eq_of_resembles {c c' : ClassFacts} (h : Resembles m d d')
    (hc : d.DescribesClass m c) (hc' : d'.DescribesClass m c') (hid : c.id = c'.id) :
    { c with properties := c'.properties } = c' := by
  refine ClassFacts.ext hid ?_ ?_ ?_ rfl ?_
  · exact hc.refable.unique (hid ▸ hc'.refable.congr h.symm)
  · obtain ⟨v, hv, hname⟩ := hc'.idProperty
    rw [← hid] at hv
    refine Dataset.IsValue.map_unique hc.idProperty ⟨v, hv.congr ?_, hname⟩
    exact h.symm.alike c.id m.idPropertyName (by simp [values])
  · refine Text.eq_of_pairwise_lt hc.parents_ascending hc'.parents_ascending fun x => ?_
    rw [hc.mem_parents, hc'.mem_parents, h.isStructural_iff, h.links, hid]
  · obtain ⟨v, hv, hcomment⟩ := hc'.comment
    rw [← hid] at hv
    refine Dataset.IsValue.map_unique hc.comment ⟨v, hv.congr ?_, hcomment⟩
    exact h.symm.alike c.id rdfsComment (by simp [values])

/-! ## Shapes of a renamed dataset -/

namespace Dataset

theorem rightUnique_describes (d : Dataset) : Relator.RightUnique d.Describes :=
  fun _ _ _ hf hf' => hf.unique hf'

theorem exists_append_of_forall₂ {α β : Type} {R : α → β → Prop} {as as' : List α} {bs : List β}
    (h : List.Forall₂ R (as ++ as') bs) :
    ∃ l l', bs = l ++ l' ∧ List.Forall₂ R as l ∧ List.Forall₂ R as' l' := by
  refine ⟨bs.take as.length, bs.drop as.length, (List.take_append_drop _ _).symm, ?_, ?_⟩
  · simpa using List.forall₂_take as.length h
  · simpa using List.forall₂_drop as.length h

theorem describes_of_rename (hd : d.Plain m) (hf : Set.InjOn f d.blankIds) {s : Node}
    (hs : d.Knows s) {p : PropertyFacts} (h : (d.rename f).Describes (s.rename f) p) :
    d.Describes s p :=
  h.congr (hd.resembles_rename hf).symm (hd.alike_rename hf hs).symm

theorem forall₂_describes_of_rename (hd : d.Plain m) (hf : Set.InjOn f d.blankIds)
    {shapes : List Node} (hs : ∀ s ∈ shapes, d.Knows s) {ps : List PropertyFacts}
    (h : List.Forall₂ (d.rename f).Describes (shapes.map (Node.rename f)) ps) :
    List.Forall₂ d.Describes shapes ps := by
  rw [List.forall₂_map_left_iff] at h
  refine ((List.forall₂_and_left shapes ps).2 ⟨hs, h⟩).imp fun s p hsp => ?_
  exact describes_of_rename hd hf hsp.1 hsp.2

/-- The properties of a class that are read of a renamed dataset: those of IRIs are the
same, and those of other nodes are rearranged. -/
theorem exists_split_of_rename (hd : d.Plain m) (hf : Set.InjOn f d.blankIds) {id : String}
    {ps ps' : List PropertyFacts}
    (hps : List.Forall₂ d.Describes (d.objects (.iri id) shProperty) ps)
    (hps' : List.Forall₂ (d.rename f).Describes ((d.rename f).objects (.iri id) shProperty) ps') :
    ∃ front back back', ps = front ++ back ∧ ps' = front ++ back' ∧ back.Perm back' ∧
      List.Forall₂ d.Describes (d.otherObjects (.iri id) shProperty) back := by
  rw [objects_eq_append] at hps hps'
  obtain ⟨front, back, rfl, hfront, hback⟩ := exists_append_of_forall₂ hps
  obtain ⟨front', back', rfl, hfront', hback'⟩ := exists_append_of_forall₂ hps'
  have hiri : (d.iriObjects (.iri id) shProperty).map (Node.rename f) =
      d.iriObjects (.iri id) shProperty := by
    refine (List.map_congr_left fun s hs => ?_).trans (List.map_id _)
    obtain ⟨t, rfl⟩ := Node.isIri_iff.1 (mem_iriObjects.1 hs).2
    rfl
  rw [iriObjects_rename hf, ← hiri] at hfront'
  have heq : front = front' := by
    refine List.right_unique_forall₂' d.rightUnique_describes hfront ?_
    refine forall₂_describes_of_rename hd hf (fun s hs => ?_) hfront'
    exact (mem_iriObjects.1 hs).1.knows_object
  -- Rearranging the new list into the order of the old ids gives the old descriptions.
  obtain ⟨moved, hmoved, hperm⟩ :=
    List.perm_comp_forall₂ (otherObjects_rename_perm hf id shProperty).symm hback'
  have hmoved' : back = moved := by
    refine List.right_unique_forall₂' d.rightUnique_describes hback ?_
    refine forall₂_describes_of_rename hd hf (fun s hs => ?_) hmoved
    exact (mem_otherObjects.1 hs).1.knows_object
  exact ⟨front, back, back', rfl, by rw [heq], hmoved' ▸ hperm, hback⟩

end Dataset

/-! ## All that is read -/

/-- The descriptions of a class differ in the order of its anonymous shapes. -/
structure ClassFacts.Rearranged (d : Dataset) (c c' : ClassFacts) : Prop where
  same : { c with properties := c'.properties } = c'
  split : ∃ front back back', c.properties = front ++ back ∧ c'.properties = front ++ back' ∧
    back.Perm back' ∧ List.Forall₂ d.Describes (d.otherObjects (.iri c.id) shProperty) back

theorem ModelFacts.AreOf.rearranged {facts facts' : ModelFacts} (hd : d.Plain m)
    (hf : Set.InjOn f d.blankIds) (h : facts.AreOf d m) (h' : facts'.AreOf (d.rename f) m) :
    facts.kinds = facts'.kinds ∧
      List.Forall₂ (ClassFacts.Rearranged d) facts.classes facts'.classes := by
  have hres := hd.resembles_rename hf
  have hkinds := h.kinds.eq_of_resembles hres h'.kinds h.enums h'.enums
  have hids : facts.classes.map ClassFacts.id = facts'.classes.map ClassFacts.id := by
    rw [h.map_id, h'.map_id, hkinds]
  refine ⟨hkinds, Text.forall₂_of_map_eq hids fun c hc c' hc' hid => ?_⟩
  have hclass := h.classes c hc
  have hclass' := h'.classes c' hc'
  refine ⟨hclass.eq_of_resembles hres hclass' hid, ?_⟩
  exact Dataset.exists_split_of_rename hd hf hclass.properties (hid ▸ hclass'.properties)

end OntologyModel

/-
Which models do not depend on the ids of blank nodes.

The ids decide in which order the anonymous shapes of a class are visited.  Sorting by
path and name makes up for that, except where two of them give a class properties of one
path and one name that differ: sorting leaves these in the order of the visit.  So models
of a dataset and a renaming of it are equal but for such ties, and equal without
exception, for all renamings, just when there is no tie.
-/
import OntologyModel.Proofs.Acceptance
import OntologyModel.Proofs.Arrangement
import OntologyModel.Proofs.Properties
import OntologyModel.Proofs.Rereading
import Mathlib.Logic.Equiv.Basic

namespace OntologyModel

open Vocabulary
open Dataset (Resembles)

attribute [ext] Model

variable {d d' : Dataset} {metadata : Metadata} {context : String → String} {f : String → String}
  {id a b : String}

/-! ## Models and what was read -/

namespace Model

variable {m m' : Model}

theorem exists_facts_of_build (h : build d.source context metadata = .ok m) :
    ∃ facts : ModelFacts, facts.AreOf d metadata ∧ (facts.draft context).arrange = .ok m := by
  rw [build_eq] at h
  cases hrun : (ModelFacts.ofGraph metadata).run d.source with
  | error e =>
    rw [hrun] at h
    cases h
  | ok facts =>
    rw [hrun] at h
    exact ⟨facts, (ModelFacts.ofGraph_areOf (Source.answersFrom_source d)).of_run_ok hrun, h⟩

/-- Links and order leave the properties of a class as they are. -/
theorem exists_mem_of_arrange (hnodup : (m.classes.map Class.id).Nodup) (h : m.arrange = .ok m')
    {c : Class} (hc : c ∈ m.classes) :
    ∃ c' ∈ m'.classes, c'.id = c.id ∧ c'.properties = c.properties := by
  rcases Precedence.order_cases (Class.linkDerived m.classes) with
    ⟨out, hout, hperm, -⟩ | ⟨cycle, hcycle, -⟩
  · rw [arrange, hout] at h
    cases h
    rw [Class.linkDerived_eq_map hnodup] at hperm
    exact ⟨_, hperm.mem_iff.2 (List.mem_map_of_mem hc), rfl, rfl⟩
  · rw [arrange, hcycle] at h
    cases h

/-- The properties of a class are those of its shapes, named and in order. -/
theorem exists_class_of_build (h : build d.source context metadata = .ok m)
    (hid : d.IsStructural id) :
    ∃ c ∈ m.classes, c.id = id ∧ ∃ fs,
      List.Forall₂ d.Describes (d.objects (.iri id) shProperty) fs ∧
        c.properties = PropertyFacts.orderedIn context id fs := by
  obtain ⟨facts, hfacts, harrange⟩ := exists_facts_of_build h
  have hids : (facts.draft context).classes.map Class.id = facts.kinds.classIds := by
    rw [← hfacts.map_id, ModelFacts.draft, List.map_map]
    rfl
  have hnodup : ((facts.draft context).classes.map Class.id).Nodup := by
    rw [hids]
    exact Text.nodup_of_pairwise_lt hfacts.kinds.classes_ascending
  have hmem : id ∈ facts.classes.map ClassFacts.id := by
    rw [hfacts.map_id]
    exact (hfacts.kinds.mem_classIds id).2 hid
  obtain ⟨c, hc, rfl⟩ := List.mem_map.1 hmem
  obtain ⟨c', hc', hid', hproperties⟩ := exists_mem_of_arrange hnodup harrange
    (List.mem_map_of_mem (f := ClassFacts.namedIn context) hc)
  exact ⟨c', hc', hid', c.properties, (hfacts.classes c hc).properties, hproperties⟩

/-- Datasets that resemble each other have models that are related if whatever is read of
them is arranged in parallel, or none of them has a model. -/
theorem build_parallel_of_resembles {R : Model → Model → Prop} (h : Resembles metadata d d')
    (hR : d.Acceptable metadata → ∀ facts facts' : ModelFacts, facts.AreOf d metadata →
      facts'.AreOf d' metadata →
        Parallel Eq R (facts.draft context).arrange (facts'.draft context).arrange) :
    Parallel (fun _ _ => True) R (build d.source context metadata)
      (build d'.source context metadata) := by
  cases hm : build d.source context metadata with
  | error e =>
    cases hm' : build d'.source context metadata with
    | error e' => exact .error trivial
    | ok m' =>
      have hacceptable := (acceptable_of_build hm').congr h.symm
      exact absurd (violates_of_build_source hm) (hacceptable.not_violates e)
  | ok m =>
    have hacceptable := acceptable_of_build hm
    cases hm' : build d'.source context metadata with
    | error e' =>
      exact absurd (violates_of_build_source hm') ((hacceptable.congr h).not_violates e')
    | ok m' =>
      obtain ⟨facts, hfacts, harrange⟩ := exists_facts_of_build hm
      obtain ⟨facts', hfacts', harrange'⟩ := exists_facts_of_build hm'
      have hparallel := hR hacceptable facts facts' hfacts hfacts'
      rw [harrange, harrange'] at hparallel
      cases hparallel with
      | ok hmodels => exact .ok hmodels

end Model

/-! ## Models that are equal but for ties -/

/-- The properties of one class stand in the order of path and name in both, but those
that agree in path and name may change places. -/
structure Class.SameButTies (c c' : Class) : Prop where
  same : { c with properties := c'.properties } = c'
  keys : c.properties.map Property.key = c'.properties.map Property.key
  properties : c.properties.Perm c'.properties

structure Model.SameButTies (m m' : Model) : Prop where
  enums : m.enums = m'.enums
  classes : List.Forall₂ Class.SameButTies m.classes m'.classes

theorem Class.coupling_sameButTies : Class.Coupling Class.SameButTies where
  id h := by rw [← h.same]
  parentIds h := by rw [← h.same]
  link h ids := ⟨by rw [← h.same], h.keys, h.properties⟩

theorem ClassFacts.Rearranged.sameButTies {c c' : ClassFacts} (h : c.Rearranged d c')
    (context : String → String) : (c.namedIn context).SameButTies (c'.namedIn context) := by
  obtain ⟨ps, rfl⟩ : ∃ ps, c' = { c with properties := ps } := ⟨_, h.same.symm⟩
  obtain ⟨front, back, back', hps, hps', hperm, -⟩ := h.split
  have hfacts : c.properties.Perm ps := by
    rw [hps, show ps = front ++ back' from hps']
    exact hperm.append_left front
  have hnamed := hfacts.map (PropertyFacts.namedIn context c.id)
  refine ⟨rfl, Property.map_key_sortStable_eq (hnamed.map Property.key), ?_⟩
  exact (PropertyFacts.perm_orderedIn context c.id c.properties).trans
    (hnamed.trans (PropertyFacts.perm_orderedIn context c.id ps).symm)

/-- A model of a dataset and a model of a renaming of it differ in ties only. -/
theorem Dataset.Plain.build_parallel_rename (hd : d.Plain metadata)
    (hf : Set.InjOn f d.blankIds) (context : String → String) :
    Parallel (fun _ _ => True) Model.SameButTies (Model.build d.source context metadata)
      (Model.build (d.rename f).source context metadata) := by
  refine Model.build_parallel_of_resembles (hd.resembles_rename hf) fun _ facts facts' h h' => ?_
  obtain ⟨hkinds, hclasses⟩ := h.rearranged hd hf h'
  have hdraft : List.Forall₂ Class.SameButTies (facts.draft context).classes
      (facts'.draft context).classes := by
    refine List.forall₂_map_left_iff.2 (List.forall₂_map_right_iff.2 ?_)
    exact hclasses.imp fun c c' hc => hc.sameButTies context
  refine (Model.arrange_parallel Class.coupling_sameButTies hdraft).mono (fun _ _ he => he) ?_
  intro m m' hm
  refine ⟨?_, hm.2.2⟩
  rw [hm.1, hm.2.1, ModelFacts.draft, ModelFacts.draft, hkinds]

/-! ## Ties -/

namespace Dataset

structure GivesProperty (d : Dataset) (context : String → String) (id b : String)
    (p : Property) : Prop where
  shape : d.Holds (.iri id) shProperty (.blank b)
  described : ∃ f, d.Describes (.blank b) f ∧ p = f.namedIn context id

/-- Anonymous shapes give a class no two different properties of one path and one name. -/
def Untied (d : Dataset) (context : String → String) : Prop :=
  ∀ id, d.IsStructural id → ∀ a b p q, d.GivesProperty context id a p →
    d.GivesProperty context id b q → p.key = q.key → p = q

/-- No renaming of blank nodes makes a difference to the model. -/
def Reproducible (d : Dataset) (context : String → String) (metadata : Metadata) : Prop :=
  ∀ f : String → String, Set.InjOn f d.blankIds →
    Parallel (fun _ _ => True) Eq (Model.build d.source context metadata)
      (Model.build (d.rename f).source context metadata)

theorem exists_givesProperty_of_mem {shapes : List Node} {back : List PropertyFacts}
    (hshapes : ∀ s ∈ shapes, d.Holds (.iri id) shProperty s ∧ s.isIri = false)
    (hback : List.Forall₂ d.Describes shapes back) {p : Property}
    (hp : p ∈ back.map (PropertyFacts.namedIn context id)) :
    ∃ b, d.GivesProperty context id b p := by
  obtain ⟨f, hf, rfl⟩ := List.mem_map.1 hp
  obtain ⟨s, hs, hdescribes⟩ := exists_of_forall₂ hback.flip hf
  obtain ⟨hholds, hiri⟩ := hshapes s hs
  cases s with
  | iri t => exact absurd hiri (by simp [Node.isIri])
  | blank b => exact ⟨b, hholds, f, hdescribes, rfl⟩
  | literal t => exact absurd hdescribes.path.holds not_holds_literal

end Dataset

theorem ClassFacts.Rearranged.namedIn_eq {c c' : ClassFacts} (h : c.Rearranged d c')
    (hc : d.IsStructural c.id) (hd : d.Untied context) :
    c.namedIn context = c'.namedIn context := by
  obtain ⟨ps, rfl⟩ : ∃ ps, c' = { c with properties := ps } := ⟨_, h.same.symm⟩
  obtain ⟨front, back, back', hps, hps', hperm, hback⟩ := h.split
  have hgives {p : Property} (hp : p ∈ back.map (PropertyFacts.namedIn context c.id)) :
      ∃ b, d.GivesProperty context c.id b p :=
    Dataset.exists_givesProperty_of_mem (fun s hs => Dataset.mem_otherObjects.1 hs) hback hp
  have hsorted : PropertyFacts.orderedIn context c.id c.properties =
      PropertyFacts.orderedIn context c.id ps := by
    rw [hps, show ps = front ++ back' from hps', PropertyFacts.orderedIn,
      PropertyFacts.orderedIn, List.map_append, List.map_append, Text.sortStable_append,
      Text.sortStable_append]
    -- The properties of IRIs are inserted in the same way into what is sorted of the others.
    refine congrArg (fun l => List.foldr _ l _) ?_
    refine Property.sortStable_eq_of_perm (hperm.map _) fun p hp q hq hkey => ?_
    obtain ⟨a, ha⟩ := hgives hp
    obtain ⟨b, hb⟩ := hgives hq
    exact hd c.id hc a b p q ha hb hkey
  rw [ClassFacts.namedIn, ClassFacts.namedIn, hsorted]

/-- Without ties every renaming gives the same model. -/
theorem Dataset.Plain.reproducible_of_untied (hd : d.Plain metadata)
    (huntied : d.Acceptable metadata → d.Untied context) : d.Reproducible context metadata := by
  intro f hf
  refine Model.build_parallel_of_resembles (hd.resembles_rename hf) ?_
  intro hacceptable facts facts' h h'
  obtain ⟨hkinds, hclasses⟩ := h.rearranged hd hf h'
  have hstructural : ∀ c ∈ facts.classes, d.IsStructural c.id := by
    intro c hc
    rw [← h.kinds.mem_classIds, ← h.map_id]
    exact List.mem_map_of_mem hc
  have hnamed : List.Forall₂ Eq (facts.draft context).classes (facts'.draft context).classes := by
    refine List.forall₂_map_left_iff.2 (List.forall₂_map_right_iff.2 ?_)
    refine ((List.forall₂_and_left _ _).2 ⟨hstructural, hclasses⟩).imp fun c c' hc => ?_
    exact hc.2.namedIn_eq hc.1 (huntied hacceptable)
  rw [List.forall₂_eq_eq_eq] at hnamed
  have hdraft : facts.draft context = facts'.draft context := by
    refine Model.ext ?_ hnamed
    rw [ModelFacts.draft, ModelFacts.draft, hkinds]
  rw [hdraft]
  exact .of_self fun _ _ => rfl

end OntologyModel

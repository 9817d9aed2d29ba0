/-
Ties are what makes the ids of blank nodes show.

If two anonymous shapes of a class are tied, exchanging their ids exchanges the places of
their properties and changes nothing else, so that the model of the renamed dataset is
another one.  Hence a dataset is reproducible just when it has no ties or no model.
-/
import OntologyModel.Proofs.Reproducibility

namespace OntologyModel

open Vocabulary

variable {d : Dataset} {metadata : Metadata} {context : String → String} {a b id : String}

/-! ## Exchanging two blank nodes -/

namespace Node

theorem rename_swap_cases (a b : String) (n : Node) :
    n = .blank a ∧ n.rename (Equiv.swap a b) = .blank b ∨
      n = .blank b ∧ n.rename (Equiv.swap a b) = .blank a ∨ n.rename (Equiv.swap a b) = n := by
  cases n with
  | iri t => exact .inr (.inr rfl)
  | literal t => exact .inr (.inr rfl)
  | blank c =>
    by_cases hca : c = a
    · exact .inl ⟨by rw [hca], by rw [hca, rename, Equiv.swap_apply_left]⟩
    · by_cases hcb : c = b
      · exact .inr (.inl ⟨by rw [hcb], by rw [hcb, rename, Equiv.swap_apply_right]⟩)
      · exact .inr (.inr (by rw [rename, Equiv.swap_apply_of_ne_of_ne hca hcb]))

theorem rename_swap_rename_swap (a b : String) (n : Node) :
    (n.rename (Equiv.swap a b)).rename (Equiv.swap a b) = n := by
  cases n with
  | iri t => rfl
  | literal t => rfl
  | blank c => rw [rename, rename, Equiv.swap_apply_self]

end Node

namespace Dataset

theorem injOn_swap (d : Dataset) (a b : String) : Set.InjOn (Equiv.swap a b) d.blankIds :=
  (Equiv.swap a b).injective.injOn

theorem Holds.swap {s o : Node} {p : String} (h : d.Holds s p o) (ha : d.Holds s p (.blank a))
    (hb : d.Holds s p (.blank b)) : d.Holds s p (o.rename (Equiv.swap a b)) := by
  rcases o.rename_swap_cases a b with ⟨-, ho⟩ | ⟨-, ho⟩ | ho
  · rw [ho]
    exact hb
  · rw [ho]
    exact ha
  · rw [ho]
    exact h

theorem objects_rename_swap {p : String} (ha : d.Holds (.iri id) p (.blank a))
    (hb : d.Holds (.iri id) p (.blank b)) :
    (d.rename (Equiv.swap a b)).objects (.iri id) p = d.objects (.iri id) p := by
  refine Text.eq_of_ascending Node.strictOrder_before (pairwise_objects _ _ _)
    (pairwise_objects _ _ _) fun o' => ?_
  rw [mem_objects, mem_objects]
  constructor
  · intro h
    obtain ⟨o, ho, rfl⟩ := (holds_rename_of_iri_iff (d.injOn_swap a b)).1 h
    exact ho.swap ha hb
  · intro h
    refine (holds_rename_of_iri_iff (d.injOn_swap a b)).2 ⟨_, h.swap ha hb, ?_⟩
    exact o'.rename_swap_rename_swap a b

/-! ## Ties show -/

/-- If the exchange of two tied shapes leaves the order of properties as it is, then their
properties are equal. -/
theorem Plain.eq_of_orderedIn_eq (hd : d.Plain metadata)
    (ha : d.Holds (.iri id) shProperty (.blank a)) (hb : d.Holds (.iri id) shProperty (.blank b))
    {fs fs' : List PropertyFacts} {p q : PropertyFacts}
    (hfs : List.Forall₂ d.Describes (d.objects (.iri id) shProperty) fs)
    (hfs' : List.Forall₂ (d.rename (Equiv.swap a b)).Describes
      ((d.rename (Equiv.swap a b)).objects (.iri id) shProperty) fs')
    (hsorted : PropertyFacts.orderedIn context id fs = PropertyFacts.orderedIn context id fs')
    (hp : d.Describes (.blank a) p) (hq : d.Describes (.blank b) q)
    (hkey : (p.namedIn context id).key = (q.namedIn context id).key) :
    p.namedIn context id = q.namedIn context id := by
  have hex : ∀ s ∈ d.objects (.iri id) shProperty, ∃ f, d.Describes s f := by
    intro s hs
    obtain ⟨f, -, hf⟩ := exists_of_forall₂ hfs hs
    exact ⟨f, hf⟩
  have : Nonempty PropertyFacts := ⟨p⟩
  choose! facts hfacts using hex
  have hmoved : ∀ s ∈ d.objects (.iri id) shProperty,
      s.rename (Equiv.swap a b) ∈ d.objects (.iri id) shProperty :=
    fun s hs => mem_objects.2 ((mem_objects.1 hs).swap ha hb)
  have hread : fs = (d.objects (.iri id) shProperty).map facts := by
    refine List.right_unique_forall₂' d.rightUnique_describes hfs ?_
    exact List.forall₂_map_right_iff.2 (List.forall₂_same.2 hfacts)
  -- Each shape is now described as the one it changed places with.
  have hread' : fs' = (d.objects (.iri id) shProperty).map
      fun s => facts (s.rename (Equiv.swap a b)) := by
    rw [objects_rename_swap ha hb] at hfs'
    refine List.right_unique_forall₂' (rightUnique_describes _) hfs' ?_
    refine List.forall₂_map_right_iff.2 (List.forall₂_same.2 fun s hs => ?_)
    have halike := hd.alike_rename (d.injOn_swap a b)
      (mem_objects.1 (hmoved s hs)).knows_object
    rw [Node.rename_swap_rename_swap] at halike
    exact (hfacts _ (hmoved s hs)).congr (hd.resembles_rename (d.injOn_swap a b)) halike
  have hpa : facts (.blank a) = p := (hfacts _ (mem_objects.2 ha)).unique hp
  have hqb : facts (.blank b) = q := (hfacts _ (mem_objects.2 hb)).unique hq
  rw [hread, hread', PropertyFacts.orderedIn, PropertyFacts.orderedIn, List.map_map,
    List.map_map] at hsorted
  -- The exchange keeps the key of every shape, so that sorting cannot make up for it.
  have hequal := Property.eq_of_sortStable_eq (fun s _ => ?_) hsorted (.blank a) (mem_objects.2 ha)
  · rw [Function.comp, Function.comp, Node.rename, Equiv.swap_apply_left, hpa, hqb] at hequal
    exact hequal
  · rw [Function.comp, Function.comp]
    rcases s.rename_swap_cases a b with ⟨hs, hs'⟩ | ⟨hs, hs'⟩ | hs
    · rw [hs', hs, hpa, hqb]
      exact hkey
    · rw [hs', hs, hpa, hqb]
      exact hkey.symm
    · rw [hs]

theorem Plain.untied_of_reproducible (hd : d.Plain metadata) (hacceptable : d.Acceptable metadata)
    (h : d.Reproducible context metadata) : d.Untied context := by
  intro id hid a b p q hp hq hkey
  obtain ⟨ha, f, hf, rfl⟩ := hp
  obtain ⟨hb, f', hf', rfl⟩ := hq
  have hparallel := h (Equiv.swap a b) (d.injOn_swap a b)
  cases hm : Model.build d.source context metadata with
  | error e => exact absurd (Model.violates_of_build_source hm) (hacceptable.not_violates e)
  | ok m =>
    rw [hm] at hparallel
    generalize hm' : Model.build (d.rename (Equiv.swap a b)).source context metadata = result
      at hparallel
    cases hparallel with
    | @ok _ m' hmodels =>
      rw [← hmodels] at hm'
      have hid' := (hd.resembles_rename (d.injOn_swap a b)).isStructural_iff.1 hid
      obtain ⟨c, hc, hcid, fs, hfs, hproperties⟩ := Model.exists_class_of_build hm hid
      obtain ⟨c', hc', hcid', fs', hfs', hproperties'⟩ := Model.exists_class_of_build hm' hid'
      have hclasses : c' = c :=
        (Model.renders_of_build (Source.answersFrom_source d) hm).eq_of_id hc hc'
          (hcid'.trans hcid.symm)
      rw [hclasses, hproperties] at hproperties'
      exact hd.eq_of_orderedIn_eq ha hb hfs hfs' hproperties' hf hf' hkey

/-! ## Reproducible datasets -/

/-- Other ids for blank nodes change a model in ties at most, and in nothing at all, for
any choice of them, just if there is no tie or no model. -/
theorem Plain.reproducible_iff_untied (hd : d.Plain metadata) (context : String → String) :
    (∀ f : String → String, Set.InjOn f d.blankIds →
      Parallel (fun _ _ => True) Model.SameButTies (Model.build d.source context metadata)
        (Model.build (d.rename f).source context metadata)) ∧
    (d.Reproducible context metadata ↔ (d.Acceptable metadata → d.Untied context)) :=
  ⟨fun _ hf => hd.build_parallel_rename hf context,
    fun h hacceptable => hd.untied_of_reproducible hacceptable h, hd.reproducible_of_untied⟩

/-- A model in which no class has two properties of one path and one name has no ties. -/
theorem untied_of_build {m : Model} (h : Model.build d.source context metadata = .ok m)
    (hkeys : ∀ c ∈ m.classes, (c.properties.map Property.key).Nodup) : d.Untied context := by
  intro id hid a b p q hp hq hkey
  obtain ⟨c, hc, -, fs, hfs, hproperties⟩ := Model.exists_class_of_build h hid
  have hmem {b : String} {p : Property} (hp : d.GivesProperty context id b p) :
      p ∈ c.properties := by
    obtain ⟨hshape, f, hf, rfl⟩ := hp
    obtain ⟨f', hmem, hf'⟩ := exists_of_forall₂ hfs (mem_objects.2 hshape)
    rw [hproperties, (PropertyFacts.perm_orderedIn context id fs).mem_iff, hf.unique hf']
    exact List.mem_map_of_mem hmem
  exact List.inj_on_of_nodup_map (hkeys c hc) (hmem hp) (hmem hq) hkey

set_option maxRecDepth 10000 in
theorem reproducible_carPark :
    carPark.Plain (.ofNamespace defaultMetadataNamespace) ∧
      carPark.Reproducible (fun t => t) (.ofNamespace defaultMetadataNamespace) := by
  have hplain : carPark.Plain (.ofNamespace defaultMetadataNamespace) :=
    plain_of_forall_mem (by decide)
  have h : Model.build carPark.source (fun t => t) (.ofNamespace defaultMetadataNamespace) =
      .ok carParkModel := by rfl
  exact ⟨hplain, (hplain.reproducible_iff_untied _).2.2 fun _ => untied_of_build h (by decide)⟩

/-- Cars with two shapes for their wheels, one for the least and one for the greatest
number of them. -/
def wheels : Dataset :=
  [⟨.iri "urn:Car", rdfType, .resource (.iri owlClass), none⟩,
    ⟨.iri "urn:Car", shProperty, .resource (.blank "few"), none⟩,
    ⟨.blank "few", shPath, .resource (.iri "urn:wheels"), none⟩,
    ⟨.blank "few", shDatatype, .resource (.iri "urn:number"), none⟩,
    ⟨.blank "few", shMinCount, .literal "3" .plain, none⟩,
    ⟨.iri "urn:Car", shProperty, .resource (.blank "many"), none⟩,
    ⟨.blank "many", shPath, .resource (.iri "urn:wheels"), none⟩,
    ⟨.blank "many", shDatatype, .resource (.iri "urn:number"), none⟩,
    ⟨.blank "many", shMaxCount, .literal "4" .plain, none⟩]

def wheelsModel (properties : List Property) : Model :=
  ⟨[], [⟨"urn:Car", "urn_Car", [], [], properties, "", none, .optional⟩]⟩

def fewWheels : Property := ⟨"urn:wheels", "wheels", "", some 3, none, .datatype "urn:number" none⟩

def manyWheels : Property := ⟨"urn:wheels", "wheels", "", none, some 4, .datatype "urn:number" none⟩

set_option maxRecDepth 10000 in
/-- The order of the two shapes for wheels is that of their ids. -/
theorem not_reproducible_wheels :
    wheels.Plain (.ofNamespace defaultMetadataNamespace) ∧
      Function.Injective (Equiv.swap "few" "many") ∧
      Model.build wheels.source (fun t => t) (.ofNamespace defaultMetadataNamespace) =
        .ok (wheelsModel [fewWheels, manyWheels]) ∧
      Model.build (wheels.rename (Equiv.swap "few" "many")).source (fun t => t)
        (.ofNamespace defaultMetadataNamespace) = .ok (wheelsModel [manyWheels, fewWheels]) ∧
      wheelsModel [fewWheels, manyWheels] ≠ wheelsModel [manyWheels, fewWheels] :=
  ⟨plain_of_forall_mem (by decide), (Equiv.swap _ _).injective, by rfl, by rfl, by decide⟩

end Dataset
end OntologyModel

/-
Which datasets have a model.

The construction stops at the first condition that it finds violated, so that there
are many ways to fail and one to succeed.  Still it accepts exactly the datasets on
which all conditions hold: a model carries a description of every structural class,
and an error that is reported is a violation.
-/
import OntologyModel.Proofs.Models

namespace OntologyModel

open Vocabulary
open Dataset (carPark carParkModel)

namespace Dataset

variable {d : Dataset} {metadata : Metadata} {m : Model}

theorem Renders.acceptable (h : d.Renders metadata m) : d.Acceptable metadata := by
  refine acceptable_of_describesClass ?_ h.acyclic
  intro id hid
  obtain ⟨c, hc, hcid⟩ := List.mem_map.1 ((h.mem_classes id).2 hid)
  obtain ⟨f, hf, hnamed⟩ := h.described c hc
  exact ⟨f, hnamed.id.symm.trans hcid, hf⟩

end Dataset

namespace Model

variable {d : Dataset} {metadata : Metadata} {context : String → String} {e : ModelError}

/-- A dataset refuses nothing, so that every error is found in it. -/
theorem violates_of_build_source (h : build d.source context metadata = .error e) :
    d.Violates metadata e := by
  rcases violates_of_build (Source.answersFrom_source d) h with hviolates | hrefusal
  · exact hviolates
  · exact absurd hrefusal (ModelError.not_isRefusal_source d e)

theorem acceptable_of_build {m : Model} (h : build d.source context metadata = .ok m) :
    d.Acceptable metadata :=
  (renders_of_build (Source.answersFrom_source d) h).acceptable

/-- The construction accepts the datasets that satisfy every condition and no others,
and what it reports of the others is true. -/
theorem build_decides_acceptable (d : Dataset) (context : String → String)
    (metadata : Metadata) :
    ((∃ m, build d.source context metadata = .ok m) ↔ d.Acceptable metadata) ∧
      ∀ e, build d.source context metadata = .error e → d.Violates metadata e := by
  refine ⟨⟨?_, ?_⟩, fun e he => violates_of_build_source he⟩
  · intro hex
    obtain ⟨m, hm⟩ := hex
    exact acceptable_of_build hm
  · intro hacceptable
    cases h : build d.source context metadata with
    | ok m => exact ⟨m, rfl⟩
    | error e => exact absurd (violates_of_build_source h) (hacceptable.not_violates e)

/-- The car park with cars that are trucks, trucks that are vehicles and vehicles that
are cars. -/
def tangle : Dataset :=
  carPark ++
    [⟨.iri "urn:Truck", rdfType, .resource (.iri owlClass), none⟩,
      ⟨.iri "urn:Car", rdfsSubClassOf, .resource (.iri "urn:Truck"), none⟩,
      ⟨.iri "urn:Truck", rdfsSubClassOf, .resource (.iri "urn:Vehicle"), none⟩,
      ⟨.iri "urn:Vehicle", rdfsSubClassOf, .resource (.iri "urn:Car"), none⟩]

set_option maxRecDepth 10000 in
theorem acceptable_carPark_violates_tangle :
    carPark.Acceptable (.ofNamespace defaultMetadataNamespace) ∧
      tangle.Violates (.ofNamespace defaultMetadataNamespace)
        (.cyclicClassHierarchy ["urn:Car", "urn:Truck", "urn:Vehicle", "urn:Car"]) := by
  have hok : build carPark.source (fun t => t) (.ofNamespace defaultMetadataNamespace) =
      .ok carParkModel := by rfl
  have herror : build tangle.source (fun t => t) (.ofNamespace defaultMetadataNamespace) =
      .error (.cyclicClassHierarchy ["urn:Car", "urn:Truck", "urn:Vehicle", "urn:Car"]) := by rfl
  exact ⟨(build_decides_acceptable _ _ _).1.1 ⟨_, hok⟩,
    (build_decides_acceptable _ _ _).2 _ herror⟩

end Model
end OntologyModel

/-
What of a dataset a model depends on.

Nothing that a dataset says on other predicates than those of the footprint is ever looked
at, and since answers are ordered and free of repetition, neither are the order and the
number of its quads.
-/
import OntologyModel.Proofs.Models
import OntologyModel.Proofs.Scope

namespace OntologyModel

open Vocabulary
open Dataset (carPark)

variable {m : Metadata}

/-! ## Datasets that agree -/

namespace Dataset

variable {d d' : Dataset} {ps : List String}

/-- Two datasets have the same triples of the default graph on some predicates. -/
def AgreeOn (ps : List String) (d d' : Dataset) : Prop :=
  ∀ t : Triple, t.predicate ∈ ps → (t ∈ d.triples ↔ t ∈ d'.triples)

theorem agreeOn_of_forall_mem (h : ∀ t ∈ d.triples, t.predicate ∈ ps → t ∈ d'.triples)
    (h' : ∀ t ∈ d'.triples, t.predicate ∈ ps → t ∈ d.triples) : AgreeOn ps d d' :=
  fun t ht => ⟨fun hd => h t hd ht, fun hd' => h' t hd' ht⟩

/-- No question tells apart what agrees on its predicate. -/
theorem AgreeOn.answer_eq (h : AgreeOn ps d d') {q : Question} (hq : q.predicate ∈ ps) :
    d.source.answer q = d'.source.answer q := by
  have hanswer (test : Triple → Bool) (node : Triple → Node)
      (htest : ∀ t, test t = true → t.predicate = q.predicate) :
      Text.ascending Node.before
          (d.triples.filterMap fun t => if test t then some (node t) else none) =
        Text.ascending Node.before
          (d'.triples.filterMap fun t => if test t then some (node t) else none) := by
    refine Text.ascending_congr Node.strictOrder_before fun x => ?_
    rw [List.mem_filterMap, List.mem_filterMap]
    refine exists_congr fun t => and_congr_left fun ht => h t ?_
    rw [htest t (Option.ite_none_right_eq_some.1 ht).1]
    exact hq
  cases q with
  | subjects p o =>
    cases o with
    | literal text => rfl
    | iri text =>
      exact congrArg Except.ok (hanswer (fun t => t.predicate = p && t.object = .iri text)
        Triple.subject fun t ht => of_decide_eq_true (Bool.and_eq_true_iff.1 ht).1)
    | blank id =>
      exact congrArg Except.ok (hanswer (fun t => t.predicate = p && t.object = .blank id)
        Triple.subject fun t ht => of_decide_eq_true (Bool.and_eq_true_iff.1 ht).1)
  | objects s p =>
    exact congrArg Except.ok (hanswer (fun t => t.subject = s && t.predicate = p)
      Triple.object fun t ht => of_decide_eq_true (Bool.and_eq_true_iff.1 ht).2)

/-- The model of a dataset, or the error, is the same for every dataset with the same
triples on the predicates that are read. -/
theorem build_eq_of_agreeOn (context : String → String) (h : AgreeOn (footprint m) d d') :
    Model.build d.source context m = Model.build d'.source context m :=
  (Model.construction_asksOnly context m).run_eq fun _ hq => h.answer_eq hq

/-- The car park in another order, with a count that is written differently and told
twice, a fact about wheels, and trucks in a graph of their own. -/
def carParkRetold : Dataset :=
  [⟨.blank "paint", shMaxCount, .literal "+01" (.datatype (xsdNamespace ++ "integer")), none⟩,
    ⟨.iri "urn:Car", "urn:wheels", .literal "4" .plain, none⟩,
    ⟨.iri "urn:Truck", rdfType, .resource (.iri owlClass), some (.iri "urn:plans")⟩] ++
  carPark.reverse

set_option maxRecDepth 10000 in
theorem build_carParkRetold :
    AgreeOn (footprint (.ofNamespace defaultMetadataNamespace)) carPark carParkRetold ∧
      Model.build carPark.source (fun t => t) (.ofNamespace defaultMetadataNamespace) =
        Model.build carParkRetold.source (fun t => t) (.ofNamespace defaultMetadataNamespace) := by
  have h : AgreeOn (footprint (.ofNamespace defaultMetadataNamespace)) carPark carParkRetold :=
    agreeOn_of_forall_mem (by decide) (by decide)
  exact ⟨h, build_eq_of_agreeOn _ h⟩

end Dataset
end OntologyModel

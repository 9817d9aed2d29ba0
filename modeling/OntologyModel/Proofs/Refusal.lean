/-
What the construction makes of a source that refuses questions.

The questions that the construction asks of a dataset decide whether a refusal is met.
If one of them is on a refused predicate, the construction ends with the refusal of the
first such question; otherwise nobody can tell that anything would have been refused.
-/
import OntologyModel.Proofs.Acceptance
import OntologyModel.Proofs.Questions

namespace OntologyModel

open Vocabulary

namespace Model

variable {d : Dataset} {context : String → String} {metadata : Metadata}

/-- The questions that the construction asks of a dataset, the first one first. -/
def asked (d : Dataset) (context : String → String) (metadata : Metadata) : List Question :=
  (construction context metadata).questions d.source

theorem build_source_ne_graph (d : Dataset) (cause : GraphError) :
    build d.source context metadata ≠ .error (.graph cause) := fun h =>
  violates_of_build_source h

variable (d context metadata) in
/-- A refused question ends the construction with its refusal, the first one if there are
several, and a refusal that is not met changes nothing. -/
theorem build_refusingOn (F : Set String) [DecidablePred (· ∈ F)] :
    (∀ q, (asked d context metadata).find? (fun q => q.predicate ∈ F) = some q →
      build (d.source.refusingOn F) context metadata = .error (.graph (.refused q.predicate))) ∧
    ((∀ q ∈ asked d context metadata, q.predicate ∉ F) →
      build (d.source.refusingOn F) context metadata = build d.source context metadata) ∧
    ((∃ cause, build (d.source.refusingOn F) context metadata = .error (.graph cause)) ↔
      ∃ q ∈ asked d context metadata, q.predicate ∈ F) := by
  have hmet (q : Question)
      (hq : (asked d context metadata).find? (fun q => q.predicate ∈ F) = some q) :
      build (d.source.refusingOn F) context metadata =
        .error (.graph (.refused q.predicate)) :=
    Inquiry.run_refusingOn_of_find? hq
  have hunmet (h : ∀ q ∈ asked d context metadata, q.predicate ∉ F) :
      build (d.source.refusingOn F) context metadata = build d.source context metadata :=
    Inquiry.run_refusingOn_of_forall h
  refine ⟨hmet, hunmet, ?_, ?_⟩
  · intro hex
    obtain ⟨cause, hcause⟩ := hex
    by_contra hno
    have hnone : ∀ q ∈ asked d context metadata, q.predicate ∉ F :=
      fun q hq hF => hno ⟨q, hq, hF⟩
    rw [hunmet hnone] at hcause
    exact build_source_ne_graph d cause hcause
  · intro hex
    obtain ⟨q, hq, hF⟩ := hex
    have hsome : ((asked d context metadata).find? fun q => q.predicate ∈ F).isSome = true :=
      List.find?_isSome.2 ⟨q, hq, by simpa using hF⟩
    obtain ⟨first, hfirst⟩ := Option.isSome_iff_exists.1 hsome
    exact ⟨.refused first.predicate, hmet first hfirst⟩

/-- The first question is always for the declared classes. -/
example : (asked d context metadata).head? = some (.subjects rdfType (.iri owlClass)) := rfl

end Model
end OntologyModel

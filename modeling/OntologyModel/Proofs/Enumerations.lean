/-
What is read of enumerations is true.

The values of an enumeration are its named individuals, each of them once and in
ascending order of id, with the name and the comment that the dataset has for them.
Together with the descriptions of structural classes this makes up all that is read of
a dataset, which `ModelFacts.AreOf` says at once.
-/
import OntologyModel.Proofs.Construction
import Mathlib.Data.List.Nodup

namespace OntologyModel

open Vocabulary

variable {g : Source} {d : Dataset} {metadata : Metadata} {E : ModelError → Prop}

namespace Dataset

/-! ## True descriptions of enumerations -/

structure DescribesValue (d : Dataset) (classId : String) (v : EnumValue) : Prop where
  individual : d.HasIndividual classId v.id
  name : ∃ label, d.IsValue (.iri v.id) rdfsLabel label ∧
    v.name = (label.map Node.text).getD (Text.removeCommonPrefix v.id [classId])
  comment : ∃ c, d.IsValue (.iri v.id) rdfsComment c ∧ v.comment = (c.map Node.text).getD ""

structure DescribesEnum (d : Dataset) (e : EnumFacts) : Prop where
  values_ascending : (e.values.map EnumValue.id).Pairwise (· < ·)
  mem_ids : ∀ i, i ∈ e.values.map EnumValue.id ↔ d.HasIndividual e.id i
  values : ∀ v ∈ e.values, d.DescribesValue e.id v
  comment : ∃ c, d.IsValue (.iri e.id) rdfsComment c ∧ e.comment = (c.map Node.text).getD ""

end Dataset

/-! ## Reading enumerations -/

theorem Inquiry.Ends.and {α : Type} {x : Inquiry α} {Q R : α → Prop} (hQ : x.Ends g Q E)
    (hR : x.Ends g R E) : x.Ends g (fun a => Q a ∧ R a) E := by
  rw [Ends] at hQ hR ⊢
  cases hx : x.run g with
  | ok a =>
    rw [hx] at hQ hR
    exact ⟨hQ, hR⟩
  | error e =>
    rw [hx] at hQ
    exact hQ

namespace Kinds

open Dataset (DescribesValue DescribesEnum)

variable {k : Kinds} {classId : String}

theorem enumValue_describes (hg : g.AnswersFrom d) {valueId : String}
    (hindividual : d.HasIndividual classId valueId) :
    (enumValue classId valueId).Ends g
      (fun v => v.id = valueId ∧ d.DescribesValue classId v) E := by
  refine (Inquiry.ends_value hg (.iri valueId) rdfsLabel).bind fun label hlabel => ?_
  refine (Inquiry.ends_textOrEmpty hg (.iri valueId) rdfsComment).bind fun comment hcomment => ?_
  exact Inquiry.ends_pure ⟨rfl, hindividual, ⟨label, hlabel, rfl⟩, hcomment⟩

theorem valuesAmong_describes (hg : g.AnswersFrom d) {nodes : List Node}
    (hnodes : ∀ node ∈ nodes, d.Holds node rdfType (.iri classId)) :
    (valuesAmong classId nodes).Ends g
      (fun vs => ((vs.map EnumValue.id).map Node.iri).Sublist nodes ∧
        ∀ v ∈ vs, d.DescribesValue classId v) E := by
  induction nodes with
  | nil => exact Inquiry.ends_pure ⟨List.Sublist.slnil, fun v hv => absurd hv List.not_mem_nil⟩
  | cons individual rest ih =>
    obtain ⟨hinstance, hrest⟩ := List.forall_mem_cons.1 hnodes
    have skip : (valuesAmong classId rest).Ends g
        (fun vs => ((vs.map EnumValue.id).map Node.iri).Sublist (individual :: rest) ∧
          ∀ v ∈ vs, d.DescribesValue classId v) E :=
      (ih hrest).mono (fun vs hvs => ⟨hvs.1.cons individual, hvs.2⟩) fun e he => he
    refine (Inquiry.ends_asserts hg individual rdfType (.iri owlNamedIndividual)).bind
      fun named hnamed => ?_
    match named, individual, hnamed, hinstance, skip with
    | false, _, _, _, skip => exact skip
    | true, .blank _, _, _, skip => exact skip
    | true, .literal _, _, _, skip => exact skip
    | true, .iri valueId, hnamed, hinstance, _ =>
      refine (enumValue_describes hg ⟨hinstance, hnamed.1 rfl⟩).bind fun v hv => ?_
      refine (ih hrest).bind fun vs hvs => Inquiry.ends_pure ⟨?_, ?_⟩
      · rw [List.map_cons, List.map_cons, hv.1]
        exact hvs.1.cons_cons _
      · exact List.forall_mem_cons.2 ⟨hv.2, hvs.2⟩

theorem enumValues_describes (hg : g.AnswersFrom d) (classId : String) :
    (enumValues classId).Ends g
      (fun vs => (vs.map EnumValue.id).Pairwise (· < ·) ∧
        ∀ v ∈ vs, d.DescribesValue classId v) E := by
  refine (Inquiry.ends_subjects hg rdfType (.iri classId)).bind fun nodes hnodes => ?_
  rw [hnodes]
  refine (valuesAmong_describes hg fun node hn => Dataset.mem_subjects.1 hn).bind fun vs hvs => ?_
  have hnodup : (vs.map EnumValue.id).Nodup :=
    List.Nodup.of_map Node.iri (hvs.1.nodup (d.nodup_subjects rdfType classId))
  refine Inquiry.ends_pure ⟨Text.pairwise_lt_sortStable EnumValue.id hnodup, fun v hv => ?_⟩
  exact hvs.2 v ((Text.perm_sortStable valueBefore vs).mem_iff.1 hv)

theorem declare_describes (hg : g.AnswersFrom d) (hk : ∀ e ∈ k.enums, d.DescribesEnum e)
    (classId : String) :
    (k.declare classId).Ends g (fun k' => ∀ e ∈ k'.enums, d.DescribesEnum e) E := by
  refine ((enumValues_ends hg classId).and (enumValues_describes hg classId)).bind
    fun values hvalues => ?_
  obtain ⟨hmem, hascending, hdescribed⟩ := hvalues
  cases values with
  | nil => exact Inquiry.Ends.found (Inquiry.ends_pure hk)
  | cons v vs =>
    refine Inquiry.Ends.found ?_
    refine (Inquiry.ends_textOrEmpty hg (.iri classId) rdfsComment).bind fun comment hcomment => ?_
    refine Inquiry.ends_pure fun e he => ?_
    rcases List.mem_append.1 he with he | he
    · exact hk e he
    · rw [List.mem_singleton.1 he]
      exact ⟨hascending, hmem, hdescribed, hcomment⟩

theorem declareAll_describes (hg : g.AnswersFrom d) (hk : ∀ e ∈ k.enums, d.DescribesEnum e)
    (nodes : List Node) :
    (k.declareAll nodes).Ends g (fun k' => ∀ e ∈ k'.enums, d.DescribesEnum e) E := by
  induction nodes generalizing k with
  | nil => exact Inquiry.ends_pure hk
  | cons node rest ih =>
    cases node with
    | iri id => exact (declare_describes hg hk id).bind fun k' hk' => ih hk'
    | blank b => exact Inquiry.Ends.found (ih hk)
    | literal t => exact Inquiry.Ends.found (ih hk)

theorem ofGraph_describes (hg : g.AnswersFrom d) :
    ofGraph.Ends g (fun k => ∀ e ∈ k.enums, d.DescribesEnum e) E := by
  refine (Inquiry.ends_subjects hg _ _).bind fun nodes _ => ?_
  have hempty : ∀ e ∈ empty.enums, d.DescribesEnum e := fun e he => absurd he List.not_mem_nil
  refine (declareAll_describes hg hempty nodes).bind fun k hk => Inquiry.ends_pure fun e he => ?_
  exact hk e ((Text.perm_sortStable enumBefore k.enums).mem_iff.1 he)

end Kinds

/-! ## All that is read -/

/-- What was read is all that the dataset says of its classes. -/
structure ModelFacts.AreOf (d : Dataset) (metadata : Metadata) (f : ModelFacts) : Prop where
  kinds : f.kinds.AreOf d
  enums : ∀ e ∈ f.kinds.enums, d.DescribesEnum e
  map_id : f.classes.map ClassFacts.id = f.kinds.classIds
  classes : ∀ c ∈ f.classes, d.DescribesClass metadata c

theorem ModelFacts.ofGraph_areOf (hg : g.AnswersFrom d) :
    (ofGraph metadata).Ends g (AreOf d metadata) (d.Violates metadata) := by
  refine ((Kinds.ofGraph_ends hg).and (Kinds.ofGraph_describes hg)).bind fun k hk => ?_
  have hids : ∀ id ∈ k.classIds, d.IsStructural id := fun id hid => (hk.1.mem_classIds id).1 hid
  refine (ClassFacts.readAll_ends hg hk.1 hids).bind fun cs hcs => Inquiry.ends_pure ?_
  exact ⟨hk.1, hk.2, hcs.1, hcs.2⟩

end OntologyModel

/-
The two kinds of declared classes are a partition.

The loop over the declared nodes keeps an invariant that speaks of the nodes seen so
far: each IRI among them stands in the list of its kind, and nothing else does.  At
its end all declared nodes are seen.
-/
import OntologyModel.Model.Kinds
import OntologyModel.Proofs.Inquiry

namespace OntologyModel

open Text (before)

namespace Kinds

variable {g : Source} {d : Dataset} {E : ModelError → Prop}

/-! ## The values of one class -/

theorem enumValue_ends (hg : g.AnswersFrom d) (classId valueId : String) :
    (enumValue classId valueId).Ends g (fun v => v.id = valueId) E := by
  refine (Inquiry.ends_value hg _ _).bind fun label _ => ?_
  refine (Inquiry.ends_textOrEmpty hg _ _).bind fun comment _ => ?_
  exact Inquiry.ends_pure rfl

theorem valuesAmong_ends (hg : g.AnswersFrom d) (classId : String) (nodes : List Node) :
    (valuesAmong classId nodes).Ends g
      (fun vs => ∀ i, i ∈ vs.map EnumValue.id ↔ .iri i ∈ nodes ∧
        d.Holds (.iri i) Vocabulary.rdfType (.iri Vocabulary.owlNamedIndividual)) E := by
  induction nodes with
  | nil => exact Inquiry.ends_pure fun i => by simp
  | cons individual rest ih =>
    refine (Inquiry.ends_asserts hg _ _ _).bind fun named hnamed => ?_
    have skip (hskip : ∀ i, individual = .iri i → ¬d.Holds (.iri i) Vocabulary.rdfType
        (.iri Vocabulary.owlNamedIndividual)) :
        (valuesAmong classId rest).Ends g (fun vs => ∀ i, i ∈ vs.map EnumValue.id ↔
          .iri i ∈ individual :: rest ∧
            d.Holds (.iri i) Vocabulary.rdfType (.iri Vocabulary.owlNamedIndividual)) E := by
      refine ih.mono (fun vs hvs i => ?_) fun e he => he
      rw [hvs]
      exact Dataset.iri_mem_cons_of_skip _ hskip rest i
    cases hn : named with
    | false =>
      refine skip fun i hi h => ?_
      rw [hn, hi] at hnamed
      exact absurd (hnamed.2 h) Bool.false_ne_true
    | true =>
      cases individual with
      | iri valueId =>
        refine (enumValue_ends hg classId valueId).bind fun v hv => ?_
        refine ih.bind fun vs hvs => Inquiry.ends_pure fun i => ?_
        rw [List.map_cons, List.mem_cons, hvs, hv]
        exact Dataset.iri_mem_cons_of_keep (fun i => d.Holds (.iri i) Vocabulary.rdfType
          (.iri Vocabulary.owlNamedIndividual)) (hnamed.1 hn) rest i
      | blank id => exact skip fun i hi => nomatch hi
      | literal t => exact skip fun i hi => nomatch hi

theorem enumValues_ends (hg : g.AnswersFrom d) (classId : String) :
    (enumValues classId).Ends g
      (fun vs => ∀ i, i ∈ vs.map EnumValue.id ↔ d.HasIndividual classId i) E := by
  refine (Inquiry.ends_subjects hg _ _).bind fun nodes hnodes => ?_
  refine (valuesAmong_ends hg classId _).bind fun vs hvs => Inquiry.ends_pure fun i => ?_
  rw [((Text.perm_sortStable valueBefore vs).map EnumValue.id).mem_iff, hvs, hnodes,
    Dataset.mem_subjects]
  rfl

/-! ## All declared classes -/

/-- Each of the IRIs seen so far stands in the list of its kind. -/
structure Covers (d : Dataset) (k : Kinds) (seen : List Node) : Prop where
  mem_enumIds : ∀ id, id ∈ k.enumIds ↔ .iri id ∈ seen ∧ d.HasIndividuals id
  mem_classIds : ∀ id, id ∈ k.classIds ↔ .iri id ∈ seen ∧ ¬d.HasIndividuals id
  enums_nodup : k.enumIds.Nodup
  classes_ascending : k.classIds.Pairwise (· < ·)

theorem covers_empty (d : Dataset) : Covers d empty [] where
  mem_enumIds id := by simp [empty, enumIds]
  mem_classIds id := by simp [empty]
  enums_nodup := List.nodup_nil
  classes_ascending := List.Pairwise.nil

variable {k : Kinds} {seen : List Node}

theorem Covers.skip (h : k.Covers d seen) {node : Node} (hnode : ∀ id, node ≠ .iri id) :
    k.Covers d (node :: seen) where
  mem_enumIds id := by
    rw [h.mem_enumIds]
    exact Dataset.iri_mem_cons_of_skip d.HasIndividuals (fun x hx => absurd hx (hnode x)) seen id
  mem_classIds id := by
    rw [h.mem_classIds]
    exact Dataset.iri_mem_cons_of_skip (¬d.HasIndividuals ·) (fun x hx => absurd hx (hnode x))
      seen id
  enums_nodup := h.enums_nodup
  classes_ascending := h.classes_ascending

theorem Covers.addClass (h : k.Covers d seen) {id : String} (hid : ¬d.HasIndividuals id) :
    Covers d { k with classIds := Text.insertDistinct before id k.classIds } (.iri id :: seen) where
  mem_enumIds x := by
    show x ∈ k.enumIds ↔ _
    rw [h.mem_enumIds]
    refine Dataset.iri_mem_cons_of_skip d.HasIndividuals (fun y hy => ?_) seen x
    rw [← Node.iri.inj hy]
    exact hid
  mem_classIds x := by
    show x ∈ Text.insertDistinct before id k.classIds ↔ _
    rw [Text.mem_insertDistinct Text.strictOrder_before, h.mem_classIds]
    exact Dataset.iri_mem_cons_of_keep (¬d.HasIndividuals ·) hid seen x
  enums_nodup := h.enums_nodup
  classes_ascending := by
    have hbefore := h.classes_ascending.imp fun hab => Text.before_iff.2 hab
    exact (Text.pairwise_insertDistinct Text.strictOrder_before id hbefore).imp Text.before_iff.1

theorem Covers.addEnum (h : k.Covers d seen) {e : EnumFacts} (he : d.HasIndividuals e.id)
    (hnew : .iri e.id ∉ seen) : Covers d { k with enums := k.enums ++ [e] } (.iri e.id :: seen) := by
  have hids : enumIds { k with enums := k.enums ++ [e] } = k.enumIds ++ [e.id] :=
    List.map_append
  have hid : e.id ∉ k.enumIds := fun hmem => hnew ((h.mem_enumIds e.id).1 hmem).1
  refine ⟨fun x => ?_, fun x => ?_, ?_, h.classes_ascending⟩
  · rw [hids, List.mem_append, List.mem_singleton, h.mem_enumIds, or_comm]
    exact Dataset.iri_mem_cons_of_keep d.HasIndividuals he seen x
  · show x ∈ k.classIds ↔ _
    rw [h.mem_classIds]
    refine Dataset.iri_mem_cons_of_skip (¬d.HasIndividuals ·) (fun y hy => ?_) seen x
    rw [← Node.iri.inj hy]
    exact not_not_intro he
  · rw [hids]
    exact (List.perm_append_singleton e.id k.enumIds).nodup_iff.2
      (List.nodup_cons.2 ⟨hid, h.enums_nodup⟩)

theorem declare_ends (hg : g.AnswersFrom d) (h : k.Covers d seen) {id : String}
    (hnew : .iri id ∉ seen) :
    (k.declare id).Ends g (fun k' => k'.Covers d (.iri id :: seen)) E := by
  refine (enumValues_ends hg id).bind fun values hvalues => ?_
  cases values with
  | nil =>
    refine Inquiry.Ends.found (Inquiry.ends_pure (h.addClass fun hex => ?_))
    obtain ⟨i, hi⟩ := hex
    exact absurd ((hvalues i).2 hi) List.not_mem_nil
  | cons v values =>
    refine Inquiry.Ends.found ?_
    refine (Inquiry.ends_textOrEmpty hg _ _).bind fun comment _ => Inquiry.ends_pure ?_
    exact h.addEnum (e := ⟨id, v :: values, comment⟩) ⟨v.id, (hvalues _).1 List.mem_cons_self⟩ hnew

theorem declareAll_ends (hg : g.AnswersFrom d) {nodes : List Node} (h : k.Covers d seen)
    (hnodup : (nodes.reverse ++ seen).Nodup) :
    (declareAll k nodes).Ends g (fun k' => k'.Covers d (nodes.reverse ++ seen)) E := by
  induction nodes generalizing k seen with
  | nil => exact Inquiry.ends_pure h
  | cons node rest ih =>
    have hsplit : (node :: rest).reverse ++ seen = rest.reverse ++ node :: seen := by
      rw [List.reverse_cons, List.append_assoc, List.singleton_append]
    rw [hsplit] at hnodup ⊢
    have hnew : node ∉ seen := (List.nodup_cons.1 (List.nodup_append.1 hnodup).2.1).1
    cases node with
    | iri id => exact (declare_ends hg h hnew).bind fun k' hk' => ih hk' hnodup
    | blank b => exact Inquiry.Ends.found (ih (h.skip fun id => nofun) hnodup)
    | literal t => exact Inquiry.Ends.found (ih (h.skip fun id => nofun) hnodup)

/-- The kinds are those of the classes that a dataset declares. -/
structure AreOf (d : Dataset) (k : Kinds) : Prop where
  enums_ascending : k.enumIds.Pairwise (· < ·)
  classes_ascending : k.classIds.Pairwise (· < ·)
  mem_enumIds : ∀ id, id ∈ k.enumIds ↔ d.IsEnumeration id
  mem_classIds : ∀ id, id ∈ k.classIds ↔ d.IsStructural id

theorem ofGraph_ends (hg : g.AnswersFrom d) : ofGraph.Ends g (AreOf d) E := by
  refine (Inquiry.ends_subjects hg _ _).bind fun nodes hnodes => ?_
  have hnodup : (nodes.reverse ++ []).Nodup := by
    rw [List.append_nil, hnodes]
    exact (List.reverse_perm _).nodup_iff.2 (d.nodup_subjects _ _)
  have hmem (id : String) : .iri id ∈ nodes.reverse ++ [] ↔ d.Declares id := by
    rw [List.append_nil, List.mem_reverse, hnodes, Dataset.mem_subjects]
    rfl
  refine (declareAll_ends hg (covers_empty d) hnodup).bind fun k hk => ?_
  have hperm : (enumIds { k with enums := Text.sortStable enumBefore k.enums }).Perm k.enumIds :=
    (Text.perm_sortStable enumBefore k.enums).map EnumFacts.id
  refine Inquiry.ends_pure ⟨Text.pairwise_lt_sortStable EnumFacts.id hk.enums_nodup,
    hk.classes_ascending, fun id => ?_, fun id => ?_⟩
  · rw [hperm.mem_iff, hk.mem_enumIds, hmem]
    rfl
  · show id ∈ k.classIds ↔ _
    rw [hk.mem_classIds, hmem]
    rfl

/-! ## Asking for a kind -/

variable {id : String}

theorem AreOf.isEnum_iff (h : k.AreOf d) : k.isEnum id = true ↔ d.IsEnumeration id :=
  List.contains_iff_mem.trans (h.mem_enumIds id)

theorem AreOf.isClass_iff (h : k.AreOf d) : k.isClass id = true ↔ d.IsStructural id :=
  List.contains_iff_mem.trans (h.mem_classIds id)

end Kinds
end OntologyModel

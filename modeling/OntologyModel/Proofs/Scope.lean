/-
What the construction may ask, and where it may fail.

All questions are on fifteen predicates: three that lead from node to node and twelve whose
objects are read for their text.  Telling the kinds of classes apart fails in no way of its
own; whatever is found wrong while a class is read, the error is about that class, so that a
cycle found there is the class itself.  Naming and arranging ask nothing.
-/
import OntologyModel.Model.Construction
import OntologyModel.Proofs.Questions

namespace OntologyModel

open Vocabulary

/-! ## The predicates that are read -/

namespace Vocabulary

/-- The predicates that lead from node to node. -/
def links : List String := [rdfType, rdfsSubClassOf, shProperty]

/-- The predicates whose objects are read for their text. -/
def values (m : Metadata) : List String :=
  [shPath, shName, shClass, shDatatype, shPattern, shMinCount, shMaxCount, rdfsRange, rdfsLabel,
    rdfsComment, m.referenceable, m.idPropertyName]

def footprint (m : Metadata) : List String := links ++ values m

variable {m : Metadata} {p : String}

theorem mem_footprint_of_links (h : p ∈ links) : p ∈ footprint m := List.mem_append_left _ h

theorem mem_footprint_of_values (h : p ∈ values m) : p ∈ footprint m := List.mem_append_right _ h

end Vocabulary

def Question.InFootprint (m : Metadata) (q : Question) : Prop := q.predicate ∈ footprint m

def ModelError.IsAbout (id : String) : ModelError → Prop
  | .unknownReferenceableValue cls _ => cls = id
  | .unknownRangeRestriction cls _ _ => cls = id
  | .missingPropertyRange cls _ => cls = id
  | .missingPropertyPath cls _ => cls = id
  | .invalidCardinality cls _ _ _ => cls = id
  | .cyclicClassHierarchy cycle => cycle = [id, id]
  | .graph _ => False

open Question (InFootprint)
open ModelError (IsAbout)

variable {k : Kinds} {m : Metadata} {classId : String} {E : ModelError → Prop}

namespace Inquiry

theorem keeps_link {s : Node} {p : String} (hp : p ∈ links) :
    (objects s p).Keeps (InFootprint m) E := keeps_objects (mem_footprint_of_links hp)

theorem keeps_text {s : Node} {p : String} (hp : p ∈ values m) :
    (value s p).Keeps (InFootprint m) E := keeps_value (mem_footprint_of_values hp)

theorem keeps_comment {s : Node} : (textOrEmpty s rdfsComment).Keeps (InFootprint m) E := by
  have hp : rdfsComment ∈ values m := by simp [values]
  exact keeps_textOrEmpty (mem_footprint_of_values hp)

theorem keeps_instances {o : Node} : (subjects rdfType o).Keeps (InFootprint m) E := by
  have hp : rdfType ∈ links := by simp [links]
  exact keeps_subjects (mem_footprint_of_links hp)

end Inquiry

open Inquiry (keeps_pure keeps_failure keeps_asserts keeps_instances keeps_link keeps_text
  keeps_comment)

/-! ## Kinds -/

namespace Kinds

theorem enumValue_keeps (valueId : String) :
    (enumValue classId valueId).Keeps (InFootprint m) E :=
  (keeps_text (by simp [values])).bind fun _ => keeps_comment.bind fun _ => keeps_pure _

theorem valuesAmong_keeps (nodes : List Node) :
    (valuesAmong classId nodes).Keeps (InFootprint m) E := by
  induction nodes with
  | nil => exact keeps_pure _
  | cons individual rest ih =>
    have hlink : rdfType ∈ footprint m := mem_footprint_of_links (by simp [links])
    refine (keeps_asserts hlink _).bind fun named => ?_
    match named, individual with
    | true, .iri valueId =>
      exact (enumValue_keeps valueId).bind fun _ => ih.bind fun _ => keeps_pure _
    | true, .blank _ => exact ih
    | true, .literal _ => exact ih
    | false, _ => exact ih

theorem declare_keeps (k : Kinds) (classId : String) :
    (k.declare classId).Keeps (InFootprint m) E := by
  have hvalues : (enumValues classId).Keeps (InFootprint m) E :=
    keeps_instances.bind fun nodes => (valuesAmong_keeps nodes).bind fun _ => keeps_pure _
  refine hvalues.bind fun values => ?_
  cases values with
  | nil => exact .found _ (keeps_pure _)
  | cons v vs => exact .found _ (keeps_comment.bind fun _ => keeps_pure _)

theorem declareAll_keeps (k : Kinds) (nodes : List Node) :
    (k.declareAll nodes).Keeps (InFootprint m) E := by
  induction nodes generalizing k with
  | nil => exact keeps_pure _
  | cons node rest ih =>
    cases node with
    | iri id => exact (declare_keeps k id).bind fun k' => ih k'
    | blank b => exact .found _ (ih k)
    | literal t => exact .found _ (ih k)

theorem ofGraph_keeps : ofGraph.Keeps (InFootprint m) E :=
  keeps_instances.bind fun nodes => (declareAll_keeps empty nodes).bind fun _ => keeps_pure _

end Kinds

/-! ## Shapes -/

namespace Shape

variable {shape : Node} {path : String}

theorem range_keeps : (range k classId shape path).Keeps (InFootprint m) (IsAbout classId) := by
  refine (keeps_text (by simp [values])).bind fun target => ?_
  cases target with
  | some target =>
    dsimp only
    cases reference? k target.text with
    | some r => exact keeps_pure r
    | none => exact keeps_failure rfl
  | none =>
    refine (keeps_text (by simp [values])).bind fun datatype => ?_
    cases datatype with
    | some datatype => exact (keeps_text (by simp [values])).bind fun _ => keeps_pure _
    | none =>
      refine (keeps_text (by simp [values])).bind fun declared => ?_
      cases declared with
      | some v => exact keeps_pure _
      | none => exact keeps_failure rfl

theorem count_keeps {p : String} (hp : p ∈ values m) :
    (count classId shape path p).Keeps (InFootprint m) (IsAbout classId) := by
  refine (keeps_text hp).bind fun v => ?_
  cases v with
  | none => exact keeps_pure _
  | some v =>
    dsimp only
    cases Count.ofText? v.text with
    | some n => exact keeps_pure _
    | none => exact keeps_failure rfl

theorem property_keeps : (property k classId shape).Keeps (InFootprint m) (IsAbout classId) := by
  refine (keeps_text (by simp [values])).bind fun path => ?_
  match path with
  | some (.iri path) =>
    refine (keeps_text (by simp [values])).bind fun _ => ?_
    refine range_keeps.bind fun range => .found _ ?_
    refine keeps_comment.bind fun _ => ?_
    refine (count_keeps (by simp [values])).bind fun _ => ?_
    exact (count_keeps (by simp [values])).bind fun _ => keeps_pure _
  | none => exact keeps_failure rfl
  | some (.blank _) => exact keeps_failure rfl
  | some (.literal _) => exact keeps_failure rfl

theorem propertiesOf_keeps (shapes : List Node) :
    (propertiesOf k classId shapes).Keeps (InFootprint m) (IsAbout classId) := by
  induction shapes with
  | nil => exact keeps_pure _
  | cons shape rest ih => exact property_keeps.bind fun _ => ih.bind fun _ => keeps_pure _

end Shape

/-! ## Classes -/

namespace ClassFacts

theorem readRefable_keeps : (readRefable m classId).Keeps (InFootprint m) fun e =>
    ∃ value, e = .unknownReferenceableValue classId value := by
  refine (keeps_text (by simp [values])).bind fun v => ?_
  cases v with
  | none => exact keeps_pure _
  | some v =>
    dsimp only
    cases Refable.ofWord? v.text with
    | some r => exact keeps_pure r
    | none => exact keeps_failure ⟨v.text, rfl⟩

theorem parentsAmong_keeps (nodes : List Node) :
    (parentsAmong k classId nodes).Keeps (InFootprint m) (IsAbout classId) := by
  induction nodes with
  | nil => exact keeps_pure _
  | cons node rest ih =>
    cases node with
    | iri parent =>
      rw [parentsAmong]
      split
      · split
        · exact keeps_failure rfl
        · exact ih.bind fun _ => keeps_pure _
      · exact .found _ ih
    | blank b => exact ih
    | literal t => exact ih

theorem read_keeps : (read k m classId).Keeps (InFootprint m) (IsAbout classId) := by
  have hrefable : (readRefable m classId).Keeps (InFootprint m) (IsAbout classId) := by
    refine readRefable_keeps.mono fun e he => ?_
    obtain ⟨value, rfl⟩ := he
    exact rfl
  have hparents : (readParents k classId).Keeps (InFootprint m) (IsAbout classId) :=
    (keeps_link (by simp [links])).bind fun nodes =>
      (parentsAmong_keeps nodes).bind fun _ => keeps_pure _
  have hproperties : (Shape.properties k classId).Keeps (InFootprint m) (IsAbout classId) :=
    (keeps_link (by simp [links])).bind fun shapes => Shape.propertiesOf_keeps shapes
  refine hrefable.bind fun _ => (keeps_text (by simp [values])).bind fun _ => ?_
  exact hparents.bind fun _ => hproperties.bind fun _ => keeps_comment.bind fun _ => keeps_pure _

theorem readAll_keeps (ids : List String) :
    (readAll k m ids).Keeps (InFootprint m) fun e => ∃ id ∈ ids, e.IsAbout id := by
  induction ids with
  | nil => exact keeps_pure _
  | cons id rest ih =>
    refine (read_keeps.mono fun e he => ⟨id, List.mem_cons_self, he⟩).bind fun c => ?_
    refine (ih.mono fun e he => ?_).bind fun _ => keeps_pure _
    obtain ⟨id', hid', habout⟩ := he
    exact ⟨id', List.mem_cons_of_mem id hid', habout⟩

end ClassFacts

/-! ## Models -/

theorem ModelFacts.ofGraph_keeps (m : Metadata) :
    (ofGraph m).Keeps (InFootprint m) fun e => ∃ id, e.IsAbout id := by
  refine Kinds.ofGraph_keeps.bind fun kinds => ?_
  refine ((ClassFacts.readAll_keeps kinds.classIds).mono fun e he => ?_).bind fun _ => keeps_pure _
  obtain ⟨id, -, habout⟩ := he
  exact ⟨id, habout⟩

theorem Model.construction_asksOnly (context : String → String) (m : Metadata) :
    (construction context m).AsksOnly (footprint m) := by
  have hfacts : (ModelFacts.ofGraph m).Keeps (InFootprint m) fun _ => True :=
    (ModelFacts.ofGraph_keeps m).mono fun _ _ => trivial
  refine Inquiry.Keeps.asksOnly (hfacts.bind fun facts => ?_)
  cases facts.named.run (.ofContext context) with
  | mk draft names =>
    dsimp only
    cases draft.arrange with
    | error e => exact keeps_failure trivial
    | ok model => exact .found _ (keeps_pure model)

end OntologyModel

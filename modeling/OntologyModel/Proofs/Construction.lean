/-
What the construction of a model makes of a dataset.

The construction reads the dataset, names what it read, links the classes and puts
them in order.  `Renders` collects what a finished model says about its dataset, and
`construction_ends` is the one statement about the construction that the results on
models rest on: a model that is reached renders the dataset, and an error that is
reached is true.
-/
import OntologyModel.Model.Construction
import OntologyModel.Proofs.Links
import OntologyModel.Proofs.Naming
import OntologyModel.Proofs.Precedence.Order
import OntologyModel.Proofs.Reading

namespace OntologyModel

open Vocabulary
open Precedence (HasParent ParentsFirst)

variable {g : Source} {d : Dataset} {metadata : Metadata} {context : String → String}

/-! ## Reading and naming -/

namespace ModelFacts

theorem ofGraph_ends (hg : g.AnswersFrom d) :
    (ofGraph metadata).Ends g
      (fun f => f.kinds.AreOf d ∧ f.classes.map ClassFacts.id = f.kinds.classIds ∧
        ∀ c ∈ f.classes, d.DescribesClass metadata c)
      (d.Violates metadata) := by
  refine (Kinds.ofGraph_ends hg).bind fun k hk => ?_
  refine (ClassFacts.readAll_ends hg hk fun id hid => (hk.mem_classIds id).1 hid).bind ?_
  exact fun cs hcs => Inquiry.ends_pure ⟨hk, hcs⟩

theorem named_gives (f : ModelFacts) :
    Naming.Gives f.named fun draft => draft.enums.map Enum.id = f.kinds.enumIds ∧
      draft.classes.map Class.id = f.classes.map ClassFacts.id ∧
      ∀ c ∈ draft.classes, ∃ fc ∈ f.classes, c.IsNamed fc := by
  refine (EnumFacts.allNamed_gives f.kinds.enums).bind fun es hes => ?_
  exact (ClassFacts.allNamed_gives f.classes).bind fun cs hcs => Naming.gives_pure ⟨hes, hcs⟩

end ModelFacts

/-! ## Models -/

namespace Dataset

/-- What a draft says of a dataset before its classes are linked. -/
structure Drafts (d : Dataset) (metadata : Metadata) (m : Model) : Prop where
  enums_ascending : (m.enums.map Enum.id).Pairwise (· < ·)
  mem_enums : ∀ id, id ∈ m.enums.map Enum.id ↔ d.IsEnumeration id
  classes_nodup : (m.classes.map Class.id).Nodup
  mem_classes : ∀ id, id ∈ m.classes.map Class.id ↔ d.IsStructural id
  described : ∀ c ∈ m.classes, ∃ f, d.DescribesClass metadata f ∧ c.IsNamed f

structure Renders (d : Dataset) (metadata : Metadata) (m : Model) : Prop
    extends d.Drafts metadata m where
  derived_ascending : ∀ c ∈ m.classes, c.derivedIds.Pairwise (· < ·)
  mem_derived : ∀ c ∈ m.classes, ∀ x, x ∈ c.derivedIds ↔
    ∃ e ∈ m.classes, e.id = x ∧ c.id ∈ e.parentIds
  parentsFirst : ParentsFirst (m.classes.map Class.id) m.classes
  acyclic : ∀ id, ¬Relation.TransGen d.Extends id id

variable {m m' : Model}

theorem Drafts.mem_parents (h : d.Drafts metadata m) {c : Class} (hc : c ∈ m.classes) (x : String) :
    x ∈ c.parentIds ↔ d.IsStructural x ∧ d.Holds (.iri c.id) rdfsSubClassOf (.iri x) := by
  obtain ⟨f, hf, hnamed⟩ := h.described c hc
  rw [hnamed.parentIds, hnamed.id]
  exact hf.mem_parents x

theorem Drafts.hasParent_iff (h : d.Drafts metadata m) {x y : String} :
    HasParent m.classes x y ↔ d.Extends x y := by
  constructor
  · intro hxy
    obtain ⟨⟨c, hc, rfl, hy⟩, -⟩ := hxy
    obtain ⟨hstr, hholds⟩ := (h.mem_parents hc y).1 hy
    exact ⟨(h.mem_classes c.id).1 (List.mem_map_of_mem hc), hstr, hholds⟩
  · intro hxy
    obtain ⟨hx, hy, hholds⟩ := hxy
    obtain ⟨c, hc, rfl⟩ := List.mem_map.1 ((h.mem_classes x).2 hx)
    exact ⟨⟨c, hc, rfl, (h.mem_parents hc y).2 ⟨hy, hholds⟩⟩,
      List.mem_map.1 ((h.mem_classes y).2 hy)⟩

theorem Drafts.link (h : d.Drafts metadata m) :
    d.Drafts metadata { m with classes := Class.linkDerived m.classes } := by
  have hmap := Class.linkDerived_eq_map h.classes_nodup
  have hids : (Class.linkDerived m.classes).map Class.id = m.classes.map Class.id := by
    rw [hmap, List.map_map]
    rfl
  refine ⟨h.enums_ascending, h.mem_enums, ?_, ?_, ?_⟩
  · show ((Class.linkDerived m.classes).map Class.id).Nodup
    rw [hids]
    exact h.classes_nodup
  · intro id
    show id ∈ (Class.linkDerived m.classes).map Class.id ↔ _
    rw [hids]
    exact h.mem_classes id
  · intro c hc
    obtain ⟨c', hc', rfl⟩ := List.mem_map.1 (hmap ▸ hc)
    obtain ⟨f, hf, hnamed⟩ := h.described c' hc'
    exact ⟨f, hf, hnamed.id, hnamed.parentIds, hnamed.properties, hnamed.comment,
      hnamed.idProperty, hnamed.refable⟩

theorem Drafts.perm (h : d.Drafts metadata m) {classes : List Class}
    (hperm : classes.Perm m.classes) : d.Drafts metadata { m with classes } where
  enums_ascending := h.enums_ascending
  mem_enums := h.mem_enums
  classes_nodup := (hperm.map Class.id).nodup_iff.2 h.classes_nodup
  mem_classes id := (hperm.map Class.id).mem_iff.trans (h.mem_classes id)
  described c hc := h.described c (hperm.mem_iff.1 hc)

theorem Drafts.mem_derivedIds (h : d.Drafts metadata m) {c : Class}
    (hc : c ∈ Class.linkDerived m.classes) (x : String) :
    x ∈ c.derivedIds ↔ ∃ e ∈ Class.linkDerived m.classes, e.id = x ∧ c.id ∈ e.parentIds := by
  rw [Class.linkDerived_eq_map h.classes_nodup] at hc ⊢
  obtain ⟨c', hc', rfl⟩ := List.mem_map.1 hc
  show x ∈ Class.derivedFrom m.classes c'.id ↔ _
  rw [Class.mem_derivedFrom]
  constructor
  · intro hex
    obtain ⟨e, he, hid, hp⟩ := hex
    exact ⟨_, List.mem_map_of_mem he, hid, hp⟩
  · intro hex
    obtain ⟨e, he, hid, hp⟩ := hex
    obtain ⟨e', he', rfl⟩ := List.mem_map.1 he
    exact ⟨e', he', hid, hp⟩

theorem Drafts.renders (h : d.Drafts metadata m) {out : List Class}
    (hperm : out.Perm (Class.linkDerived m.classes))
    (hfirst : ParentsFirst ((Class.linkDerived m.classes).map Class.id) out) :
    d.Renders metadata { m with classes := out } := by
  have hdraft := h.link.perm hperm
  have hfirst' : ParentsFirst (out.map Class.id) out :=
    hfirst.congr fun id hid => (hperm.map Class.id).mem_iff.1 hid
  refine ⟨hdraft, fun c hc => ?_, fun c hc x => ?_, hfirst', fun id hid => ?_⟩
  · have hc' := hperm.mem_iff.1 hc
    rw [Class.linkDerived_eq_map h.classes_nodup] at hc'
    obtain ⟨c', -, rfl⟩ := List.mem_map.1 hc'
    exact Class.pairwise_derivedFrom m.classes c'.id
  · rw [h.mem_derivedIds (hperm.mem_iff.1 hc)]
    exact exists_congr fun e => and_congr_left fun _ => hperm.mem_iff.symm
  · refine hfirst'.acyclic hdraft.classes_nodup id ?_
    exact Relation.TransGen.mono (fun x y hxy => hdraft.hasParent_iff.2 hxy) _ _ hid

end Dataset

namespace Model

variable {m : Model}

/-- Linking and ordering a draft either gives a model of the dataset or reports a
cycle that the dataset has. -/
theorem arrange_cases (h : d.Drafts metadata m) :
    (∃ model, m.arrange = .ok model ∧ d.Renders metadata model) ∨
    (∃ e, m.arrange = .error e ∧ d.Violates metadata e) := by
  rcases Precedence.order_cases (Class.linkDerived m.classes) with
    ⟨out, hout, hperm, hfirst⟩ | ⟨cycle, hcycle, hround⟩
  · refine .inl ⟨{ m with classes := out }, ?_, h.renders hperm hfirst⟩
    rw [arrange, hout]
    rfl
  · refine .inr ⟨.cyclicClassHierarchy cycle, ?_, hround.mono fun x y => h.link.hasParent_iff.1⟩
    rw [arrange, hcycle]
    rfl

theorem construction_ends (hg : g.AnswersFrom d) :
    (construction context metadata).Ends g (d.Renders metadata) (d.Violates metadata) := by
  refine (ModelFacts.ofGraph_ends hg).bind fun f hf => ?_
  obtain ⟨hk, hids, hdescribed⟩ := hf
  have hnaming := f.named_gives (.ofContext context)
  cases hrun : f.named.run (.ofContext context) with
  | mk draft names =>
    rw [hrun] at hnaming
    obtain ⟨henums, hclasses, hnamed⟩ := hnaming
    have hdraft : d.Drafts metadata draft := by
      refine ⟨henums ▸ hk.enums_ascending, fun id => ?_, ?_, fun id => ?_, fun c hc => ?_⟩
      · rw [henums]
        exact hk.mem_enumIds id
      · rw [hclasses, hids]
        exact Text.nodup_of_pairwise_lt hk.classes_ascending
      · rw [hclasses, hids]
        exact hk.mem_classIds id
      · obtain ⟨fc, hfc, h⟩ := hnamed c hc
        exact ⟨fc, hdescribed fc hfc, h⟩
    dsimp only
    rcases arrange_cases hdraft with ⟨model, hmodel, hrenders⟩ | ⟨e, he, hviolates⟩
    · rw [hmodel]
      exact Inquiry.Ends.found (Inquiry.ends_pure hrenders)
    · rw [he]
      exact Inquiry.ends_failure hviolates

theorem renders_of_build (hg : g.AnswersFrom d) (h : build g context metadata = .ok m) :
    d.Renders metadata m :=
  (construction_ends hg).of_run_ok h

/-- An error that was met is true, unless the source refused a question. -/
theorem violates_of_build (hg : g.AnswersFrom d) {e : ModelError}
    (h : build g context metadata = .error e) : d.Violates metadata e ∨ e.IsRefusal g :=
  (construction_ends hg).of_run_error h

end Model
end OntologyModel

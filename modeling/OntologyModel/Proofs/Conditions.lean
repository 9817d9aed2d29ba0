/-
What a dataset has to satisfy for a model to exist, and what it means for a
description or an error to be true of it.

None of this runs an inquiry.  A description is true if it agrees with the least
objects; an error is true if it names a place where its condition is violated.  A
dataset that satisfies all conditions leaves no error to be true, and true
descriptions of all classes leave no condition violated.
-/
import OntologyModel.Model.Description
import OntologyModel.Proofs.Dataset
import OntologyModel.Proofs.Precedence.Cycle
import Mathlib.Data.List.Forall2

namespace OntologyModel

open Vocabulary

namespace Dataset

variable {d : Dataset} {m : Metadata} {s shape : Node} {p path id : String}

/-! ## True descriptions -/

/-- The enumeration or structural class that a text names. -/
def Refers (d : Dataset) (id : String) : Range → Prop
  | .enumeration e => e = id ∧ d.IsEnumeration id
  | .structural c => c = id ∧ d.IsStructural id
  | .datatype .. => False

/-- The value type that a shape and its path give, by the first of three sources
that speaks. -/
inductive GivesRange (d : Dataset) (shape : Node) (path : String) : Range → Prop where
  | restricted {target : Node} {r : Range} (ht : d.Least shape shClass target)
      (hr : d.Refers target.text r) : GivesRange d shape path r
  | typed {datatype : Node} {pattern : Option Node} (hc : d.Lacks shape shClass)
      (hd : d.Least shape shDatatype datatype) (hp : d.IsValue shape shPattern pattern) :
      GivesRange d shape path (.datatype datatype.text (pattern.map Node.text))
  | declared {v : Node} {r : Range} (hc : d.Lacks shape shClass) (hd : d.Lacks shape shDatatype)
      (hv : d.Least (.iri path) rdfsRange v) (hr : d.Refers v.text r) : GivesRange d shape path r
  | foreign {v : Node} (hc : d.Lacks shape shClass) (hd : d.Lacks shape shDatatype)
      (hv : d.Least (.iri path) rdfsRange v) (hr : ¬d.Declares v.text) :
      GivesRange d shape path (.datatype v.text none)

def IsCount (d : Dataset) (s : Node) (p : String) : Option UInt64 → Prop
  | none => d.Lacks s p
  | some n => ∃ v, d.Least s p v ∧ Count.ofText? v.text = some n

structure Describes (d : Dataset) (shape : Node) (f : PropertyFacts) : Prop where
  path : d.Least shape shPath (.iri f.path)
  givenName : ∃ v, d.IsValue shape shName v ∧ f.givenName = v.map Node.text
  comment : ∃ v, d.IsValue (.iri f.path) rdfsComment v ∧ f.comment = (v.map Node.text).getD ""
  minCount : d.IsCount shape shMinCount f.minCount
  maxCount : d.IsCount shape shMaxCount f.maxCount
  range : d.GivesRange shape f.path f.range

def IsRefable (d : Dataset) (m : Metadata) (id : String) (r : Refable) : Prop :=
  (d.Lacks (.iri id) m.referenceable ∧ r = .optional) ∨
    ∃ v, d.Least (.iri id) m.referenceable v ∧ r.word = v.text

structure DescribesClass (d : Dataset) (m : Metadata) (c : ClassFacts) : Prop where
  refable : d.IsRefable m c.id c.refable
  idProperty : ∃ v, d.IsValue (.iri c.id) m.idPropertyName v ∧ c.idProperty = v.map Node.text
  parents_ascending : c.parentIds.Pairwise (· < ·)
  mem_parents : ∀ x, x ∈ c.parentIds ↔
    d.IsStructural x ∧ d.Holds (.iri c.id) rdfsSubClassOf (.iri x)
  parents_irrefl : c.id ∉ c.parentIds
  properties : List.Forall₂ d.Describes (d.objects (.iri c.id) shProperty) c.properties
  comment : ∃ v, d.IsValue (.iri c.id) rdfsComment v ∧ c.comment = (v.map Node.text).getD ""

/-! ## True errors -/

def HasShape (d : Dataset) (id : String) (shape : Node) (path : String) : Prop :=
  d.Holds (.iri id) shProperty shape ∧ d.Least shape shPath (.iri path)

/-- The place that an error names violates the condition that the error is about. -/
def Violates (d : Dataset) (m : Metadata) : ModelError → Prop
  | .unknownReferenceableValue cls value =>
    d.IsStructural cls ∧ ∃ v, d.Least (.iri cls) m.referenceable v ∧ v.text = value ∧
      ∀ r : Refable, r.word ≠ value
  | .unknownRangeRestriction cls property target =>
    d.IsStructural cls ∧ ∃ shape, d.HasShape cls shape property ∧
      ∃ v, d.Least shape shClass v ∧ v.text = target ∧
        ¬d.IsEnumeration target ∧ ¬d.IsStructural target
  | .missingPropertyRange cls property =>
    d.IsStructural cls ∧ ∃ shape, d.HasShape cls shape property ∧
      d.Lacks shape shClass ∧ d.Lacks shape shDatatype ∧ d.Lacks (.iri property) rdfsRange
  | .missingPropertyPath cls text =>
    d.IsStructural cls ∧ ∃ shape, d.Holds (.iri cls) shProperty shape ∧ shape.display = text ∧
      ∀ t, ¬d.Holds shape shPath (.iri t)
  | .invalidCardinality cls property predicate value =>
    d.IsStructural cls ∧ (predicate = shMinCount ∨ predicate = shMaxCount) ∧
      ∃ shape, d.HasShape cls shape property ∧
        ∃ v, d.Least shape predicate v ∧ v.text = value ∧ Count.ofText? value = none
  | .cyclicClassHierarchy cycle => Round d.Extends cycle
  | .graph _ => False

/-! ## Conditions -/

/-- A shape has a value type: a restriction to a known class, or else a datatype, or
else a range declared for its path. -/
def HasRange (d : Dataset) (shape : Node) : Prop :=
  (∃ v, d.Least shape shClass v ∧ (d.IsEnumeration v.text ∨ d.IsStructural v.text)) ∨
  (d.Lacks shape shClass ∧ ∃ v, d.Holds shape shDatatype v) ∨
  (d.Lacks shape shClass ∧ d.Lacks shape shDatatype ∧
    ∃ path, d.Least shape shPath (.iri path) ∧ ∃ v, d.Holds (.iri path) rdfsRange v)

/-- The conditions under which a dataset has a model. -/
structure Acceptable (d : Dataset) (m : Metadata) : Prop where
  refable : ∀ id, d.IsStructural id → ∀ v, d.Least (.iri id) m.referenceable v →
    ∃ r : Refable, r.word = v.text
  path : ∀ id, d.IsStructural id → ∀ shape, d.Holds (.iri id) shProperty shape →
    ∃ t, d.Holds shape shPath (.iri t)
  range : ∀ id, d.IsStructural id → ∀ shape, d.Holds (.iri id) shProperty shape → d.HasRange shape
  counts : ∀ id, d.IsStructural id → ∀ shape, d.Holds (.iri id) shProperty shape →
    ∀ p, p = shMinCount ∨ p = shMaxCount → ∀ v, d.Least shape p v →
      ∃ n, Count.ofText? v.text = some n
  acyclic : ∀ id, ¬Relation.TransGen d.Extends id id

/-- Where every condition holds, no error is true. -/
theorem Acceptable.not_violates (h : d.Acceptable m) (e : ModelError) : ¬d.Violates m e := by
  cases e with
  | unknownReferenceableValue cls value =>
    intro h'
    obtain ⟨hc, v, hv, rfl, hno⟩ := h'
    obtain ⟨r, hr⟩ := h.refable cls hc v hv
    exact hno r hr
  | unknownRangeRestriction cls property target =>
    intro h'
    obtain ⟨hc, shape, ⟨hs, -⟩, v, hv, rfl, he, hstr⟩ := h'
    rcases h.range cls hc shape hs with ⟨w, hw, hkind⟩ | ⟨hlacks, -⟩ | ⟨hlacks, -⟩
    · rw [hw.unique hv] at hkind
      exact hkind.elim he hstr
    · exact hlacks v hv.holds
    · exact hlacks v hv.holds
  | missingPropertyRange cls property =>
    intro h'
    obtain ⟨hc, shape, ⟨hs, hpath⟩, hclass, hdatatype, hrange⟩ := h'
    rcases h.range cls hc shape hs with ⟨w, hw, -⟩ | ⟨-, w, hw⟩ | ⟨-, -, t, ht, w, hw⟩
    · exact hclass w hw.holds
    · exact hdatatype w hw
    · have hpt : t = property := Node.iri.inj (ht.unique hpath)
      exact hrange w (hpt ▸ hw)
  | missingPropertyPath cls text =>
    intro h'
    obtain ⟨hc, shape, hs, -, hno⟩ := h'
    obtain ⟨t, ht⟩ := h.path cls hc shape hs
    exact hno t ht
  | invalidCardinality cls property predicate value =>
    intro h'
    obtain ⟨hc, hp, shape, ⟨hs, -⟩, v, hv, rfl, hnone⟩ := h'
    obtain ⟨n, hn⟩ := h.counts cls hc shape hs predicate hp v hv
    rw [hnone] at hn
    exact absurd hn (by simp)
  | cyclicClassHierarchy cycle =>
    intro hround
    obtain ⟨x, -, hx⟩ := Round.exists_transGen hround
    exact h.acyclic x hx
  | graph cause => exact id

/-! ## Conditions from descriptions -/

theorem GivesRange.hasRange {r : Range} (h : d.GivesRange shape path r)
    (hpath : d.Least shape shPath (.iri path)) : d.HasRange shape := by
  cases h with
  | @restricted target r ht hr =>
    refine .inl ⟨target, ht, ?_⟩
    cases r with
    | enumeration e => exact .inl hr.2
    | structural c => exact .inr hr.2
    | datatype iri pattern => exact hr.elim
  | typed hc hd _ => exact .inr (.inl ⟨hc, _, hd.holds⟩)
  | declared hc hd hv _ => exact .inr (.inr ⟨hc, hd, path, hpath, _, hv.holds⟩)
  | foreign hc hd hv _ => exact .inr (.inr ⟨hc, hd, path, hpath, _, hv.holds⟩)

theorem IsCount.exists_of_least {n : Option UInt64} (h : d.IsCount s p n) {v : Node}
    (hv : d.Least s p v) : ∃ n, Count.ofText? v.text = some n := by
  cases n with
  | none => exact absurd hv.holds (h v)
  | some n =>
    obtain ⟨w, hw, hn⟩ := h
    exact ⟨n, hw.unique hv ▸ hn⟩

theorem IsRefable.exists_of_least {r : Refable} (h : d.IsRefable m id r) {v : Node}
    (hv : d.Least (.iri id) m.referenceable v) : ∃ r : Refable, r.word = v.text := by
  rcases h with ⟨hlacks, -⟩ | ⟨w, hw, hr⟩
  · exact absurd hv.holds (hlacks v)
  · exact ⟨r, hw.unique hv ▸ hr⟩

theorem exists_of_forall₂ {α β : Type} {R : α → β → Prop} {as : List α} {bs : List β}
    (h : List.Forall₂ R as bs) {a : α} (ha : a ∈ as) : ∃ b ∈ bs, R a b := by
  induction h with
  | nil => exact absurd ha List.not_mem_nil
  | @cons a' b' as bs hab _ ih =>
    rcases List.mem_cons.1 ha with rfl | ha
    · exact ⟨b', List.mem_cons_self, hab⟩
    · obtain ⟨b, hb, h⟩ := ih ha
      exact ⟨b, List.mem_cons_of_mem b' hb, h⟩

theorem forall₂_trans {α β γ : Type} {R : α → β → Prop} {S : β → γ → Prop} {T : α → γ → Prop}
    {as : List α} {bs : List β} {cs : List γ} (hR : List.Forall₂ R as bs)
    (hS : List.Forall₂ S bs cs) (hT : ∀ a b c, R a b → S b c → T a c) :
    List.Forall₂ T as cs := by
  induction hR generalizing cs with
  | nil =>
    cases hS
    exact .nil
  | cons hab _ ih =>
    cases hS with
    | cons hbc hrest => exact .cons (hT _ _ _ hab hbc) (ih hrest)

/-- Descriptions of all structural classes satisfy every condition but the last. -/
theorem acceptable_of_describesClass
    (hclass : ∀ id, d.IsStructural id → ∃ f : ClassFacts, f.id = id ∧ d.DescribesClass m f)
    (hacyclic : ∀ id, ¬Relation.TransGen d.Extends id id) : d.Acceptable m := by
  have hshape : ∀ id, d.IsStructural id → ∀ shape, d.Holds (.iri id) shProperty shape →
      ∃ f, d.Describes shape f := by
    intro id hid shape hs
    obtain ⟨c, rfl, hc⟩ := hclass id hid
    obtain ⟨f, -, hf⟩ := exists_of_forall₂ hc.properties (mem_objects.2 hs)
    exact ⟨f, hf⟩
  refine ⟨?_, ?_, ?_, ?_, hacyclic⟩
  · intro id hid v hv
    obtain ⟨c, rfl, hc⟩ := hclass id hid
    exact hc.refable.exists_of_least hv
  · intro id hid shape hs
    obtain ⟨f, hf⟩ := hshape id hid shape hs
    exact ⟨f.path, hf.path.holds⟩
  · intro id hid shape hs
    obtain ⟨f, hf⟩ := hshape id hid shape hs
    exact hf.range.hasRange hf.path
  · intro id hid shape hs p hp v hv
    obtain ⟨f, hf⟩ := hshape id hid shape hs
    rcases hp with rfl | rfl
    · exact hf.minCount.exists_of_least hv
    · exact hf.maxCount.exists_of_least hv

end Dataset
end OntologyModel

/-
What every model says about its dataset.

`Mirrors` is about ids and links: the two lists of a model hold the declared classes,
each of them once, and parents, derived classes and the order agree with the
superclasses of the dataset.  `Closed` is about references: whatever a property or a
class refers to by id is found in the model, and what is not found there is foreign
to the dataset.
-/
import OntologyModel.Proofs.Construction
import Mathlib.Data.List.Nodup

namespace OntologyModel

open Vocabulary
open Precedence (ParentsFirst)

variable {g : Source} {d : Dataset} {metadata : Metadata} {context : String → String}

/-! ## Looking up -/

theorem exists_find?_of_mem_map {α : Type} (key : α → String) {l : List α} {id : String}
    (h : id ∈ l.map key) :
    ∃ a, l.find? (fun a => key a = id) = some a ∧ a ∈ l ∧ key a = id := by
  obtain ⟨b, hb, hid⟩ := List.mem_map.1 h
  have hsome : (l.find? fun a => key a = id).isSome = true :=
    List.find?_isSome.2 ⟨b, hb, decide_eq_true hid⟩
  obtain ⟨a, ha⟩ := Option.isSome_iff_exists.1 hsome
  exact ⟨a, ha, List.mem_of_find?_eq_some ha, by simpa using List.find?_some ha⟩

theorem find?_eq_none_of_not_mem_map {α : Type} (key : α → String) {l : List α} {id : String}
    (h : id ∉ l.map key) : l.find? (fun a => key a = id) = none := by
  refine List.find?_eq_none.2 fun a ha hid => ?_
  exact h (List.mem_map.2 ⟨a, ha, of_decide_eq_true hid⟩)

namespace Dataset

variable {m : Model} {shape : Node} {path iri id e c : String} {pattern : Option String}

theorem Renders.exists_enumById? (h : d.Renders metadata m) (hid : d.IsEnumeration id) :
    ∃ e, m.enumById? id = some e ∧ e ∈ m.enums ∧ e.id = id :=
  exists_find?_of_mem_map Enum.id ((h.mem_enums id).2 hid)

theorem Renders.exists_classById? (h : d.Renders metadata m) (hid : d.IsStructural id) :
    ∃ c, m.classById? id = some c ∧ c ∈ m.classes ∧ c.id = id :=
  exists_find?_of_mem_map Class.id ((h.mem_classes id).2 hid)

theorem Renders.enumById?_eq_none (h : d.Renders metadata m) (hid : ¬d.IsEnumeration id) :
    m.enumById? id = none :=
  find?_eq_none_of_not_mem_map Enum.id (mt (h.mem_enums id).1 hid)

theorem Renders.classById?_eq_none (h : d.Renders metadata m) (hid : ¬d.IsStructural id) :
    m.classById? id = none :=
  find?_eq_none_of_not_mem_map Class.id (mt (h.mem_classes id).1 hid)

/-! ## Ids and links -/

/-- Ids, links and order of a model mirror the classes that a dataset declares. -/
structure Mirrors (d : Dataset) (m : Model) : Prop where
  enums_ascending : (m.enums.map Enum.id).Pairwise (· < ·)
  classes_nodup : (m.classes.map Class.id).Nodup
  disjoint : ∀ id ∈ m.enums.map Enum.id, id ∉ m.classes.map Class.id
  /-- No declared class is lost, and no other is there. -/
  declared : ∀ id, id ∈ m.enums.map Enum.id ∨ id ∈ m.classes.map Class.id ↔
    d.Holds (.iri id) rdfType (.iri owlClass)
  lookup : ∀ id, m.enumById? id = none ∨ m.classById? id = none
  parents_ascending : ∀ c ∈ m.classes, c.parentIds.Pairwise (· < ·)
  parents_irrefl : ∀ c ∈ m.classes, c.id ∉ c.parentIds
  mem_parents : ∀ c ∈ m.classes, ∀ id, id ∈ c.parentIds ↔
    d.Holds (.iri c.id) rdfsSubClassOf (.iri id) ∧ id ∈ m.classes.map Class.id
  /-- Derived classes are the converse of parents. -/
  mem_derived : ∀ c ∈ m.classes, ∀ p ∈ m.classes, c.id ∈ p.derivedIds ↔ p.id ∈ c.parentIds
  derived_ascending : ∀ c ∈ m.classes, c.derivedIds.Pairwise (· < ·)
  parents_first : ∀ (i : Nat) (c : Class), m.classes[i]? = some c → ∀ id ∈ c.parentIds,
    ∃ j < i, ∃ p : Class, m.classes[j]? = some p ∧ p.id = id

theorem Drafts.eq_of_id (h : d.Drafts metadata m) {c e : Class} (hc : c ∈ m.classes)
    (he : e ∈ m.classes) (hid : e.id = c.id) : e = c :=
  List.inj_on_of_nodup_map h.classes_nodup he hc hid

/-- A model mirrors the classes of the dataset that it was built from, through a
source that may refuse questions. -/
theorem mirrors_of_build (hg : g.AnswersFrom d)
    (h : Model.build g context metadata = .ok m) : d.Mirrors m := by
  have hm := Model.renders_of_build hg h
  have hparent : ∀ c ∈ m.classes, ∀ id ∈ c.parentIds, id ∈ m.classes.map Class.id :=
    fun c hc id hid => (hm.mem_classes id).2 ((hm.mem_parents hc id).1 hid).1
  refine ⟨hm.enums_ascending, hm.classes_nodup, ?_, ?_, ?_, ?_, ?_, ?_, ?_,
    hm.derived_ascending, ?_⟩
  · intro id he hc
    exact ((hm.mem_classes id).1 hc).not_isEnumeration ((hm.mem_enums id).1 he)
  · intro id
    rw [hm.mem_enums, hm.mem_classes]
    exact declares_iff.symm
  · intro id
    by_cases hid : d.IsEnumeration id
    · exact .inr (hm.classById?_eq_none fun hc => hc.not_isEnumeration hid)
    · exact .inl (hm.enumById?_eq_none hid)
  · intro c hc
    obtain ⟨f, hf, hnamed⟩ := hm.described c hc
    rw [hnamed.parentIds]
    exact hf.parents_ascending
  · intro c hc
    obtain ⟨f, hf, hnamed⟩ := hm.described c hc
    rw [hnamed.parentIds, hnamed.id]
    exact hf.parents_irrefl
  · intro c hc id
    rw [hm.mem_parents hc, hm.mem_classes, and_comm]
  · intro c hc p hp
    rw [hm.mem_derived p hp]
    constructor
    · intro hex
      obtain ⟨e, he, hid, hmem⟩ := hex
      rw [hm.eq_of_id hc he hid] at hmem
      exact hmem
    · intro hmem
      exact ⟨c, hc, rfl, hmem⟩
  · intro i c hc id hid
    exact hm.parentsFirst i c hc id hid (hparent c (List.mem_of_getElem? hc) id hid)

/-- Vehicles of which some are cars.  Colours are an enumeration, so that it is no
cycle that cars are colours and colours are cars, and buses are not in the default
graph. -/
def carPark : Dataset :=
  [⟨.iri "urn:Car", rdfType, .resource (.iri owlClass), none⟩,
    ⟨.iri "urn:Car", rdfsSubClassOf, .resource (.iri "urn:Vehicle"), none⟩,
    ⟨.iri "urn:Car", rdfsSubClassOf, .resource (.iri "urn:Colour"), none⟩,
    ⟨.iri "urn:Vehicle", rdfType, .resource (.iri owlClass), none⟩,
    ⟨.iri "urn:Colour", rdfType, .resource (.iri owlClass), none⟩,
    ⟨.iri "urn:Colour", rdfsSubClassOf, .resource (.iri "urn:Car"), none⟩,
    ⟨.iri "urn:red", rdfType, .resource (.iri "urn:Colour"), none⟩,
    ⟨.iri "urn:red", rdfType, .resource (.iri owlNamedIndividual), none⟩,
    ⟨.iri "urn:Car", shProperty, .resource (.blank "paint"), none⟩,
    ⟨.blank "paint", shPath, .resource (.iri "urn:paint"), none⟩,
    ⟨.blank "paint", shClass, .resource (.iri "urn:Colour"), none⟩,
    ⟨.blank "paint", shMaxCount, .literal "1" (.datatype (xsdNamespace ++ "integer")), none⟩,
    ⟨.iri "urn:Car", shProperty, .resource (.blank "towing"), none⟩,
    ⟨.blank "towing", shPath, .resource (.iri "urn:tows"), none⟩,
    ⟨.iri "urn:tows", rdfsRange, .resource (.iri "urn:Vehicle"), none⟩,
    ⟨.iri "urn:Car", shProperty, .resource (.blank "owner"), none⟩,
    ⟨.blank "owner", shPath, .resource (.iri "urn:owner"), none⟩,
    ⟨.iri "urn:owner", rdfsRange, .resource (.iri "urn:Person"), none⟩,
    ⟨.iri "urn:Bus", rdfType, .resource (.iri owlClass), some (.iri "urn:plans")⟩]

def carParkModel : Model where
  enums := [⟨"urn:Colour", "urn_Colour", [⟨"urn:red", "red", ""⟩], ""⟩]
  classes :=
    [⟨"urn:Vehicle", "urn_Vehicle", [], ["urn:Car"], [], "", none, .optional⟩,
      ⟨"urn:Car", "urn_Car", ["urn:Vehicle"], [],
        [⟨"urn:owner", "owner", "", none, none, .datatype "urn:Person" none⟩,
          ⟨"urn:paint", "paint", "", none, some 1, .enumeration "urn:Colour"⟩,
          ⟨"urn:tows", "tows", "", none, none, .structural "urn:Vehicle"⟩],
        "", none, .optional⟩]

set_option maxRecDepth 10000 in
/-- A source that refuses what nobody asks does no harm. -/
theorem mirrors_carPark :
    Model.build (carPark.source.refusing [shPattern]) (fun t => t)
      (.ofNamespace defaultMetadataNamespace) = .ok carParkModel ∧
      carPark.Mirrors carParkModel := by
  have hg := (Source.answersFrom_source carPark).refusing [shPattern]
  have h : Model.build (carPark.source.refusing [shPattern]) (fun t => t)
      (.ofNamespace defaultMetadataNamespace) = .ok carParkModel := by rfl
  exact ⟨h, mirrors_of_build hg h⟩

/-! ## References -/

/-- A property of a model says what its shape says.  If its range had to be read from
the path, and is a datatype, then no class of the model has that name. -/
def Reflects (d : Dataset) (m : Model) (shape : Node) (p : Property) : Prop :=
  (∃ f, d.Describes shape f ∧ p = f.withName p.name) ∧
    (d.Lacks shape shClass → d.Lacks shape shDatatype → ∀ iri pattern,
      p.range = .datatype iri pattern →
        m.enumById? iri = none ∧ m.classById? iri = none ∧ pattern = none)

/-- What a model refers to by id is found in it. -/
structure Closed (d : Dataset) (m : Model) : Prop where
  enumeration : ∀ c ∈ m.classes, ∀ p ∈ c.properties, ∀ id, p.range = .enumeration id →
    ∃ e, m.enumById? id = some e ∧ e ∈ m.enums ∧ e.id = id
  structural : ∀ c ∈ m.classes, ∀ p ∈ c.properties, ∀ id, p.range = .structural id →
    ∃ e, m.classById? id = some e ∧ e ∈ m.classes ∧ e.id = id
  /-- The properties of a class are those of its shapes, one for each. -/
  properties : ∀ c ∈ m.classes, ∃ ps, c.properties.Perm ps ∧
    List.Forall₂ (d.Reflects m) (d.objects (.iri c.id) shProperty) ps
  parents : ∀ c ∈ m.classes, ∀ id ∈ c.parentIds,
    ∃ e, m.classById? id = some e ∧ e ∈ m.classes ∧ e.id = id
  derived : ∀ c ∈ m.classes, ∀ id ∈ c.derivedIds,
    ∃ e, m.classById? id = some e ∧ e ∈ m.classes ∧ e.id = id

theorem Refers.isEnumeration (h : d.Refers id (.enumeration e)) : d.IsEnumeration e :=
  h.1 ▸ h.2

theorem Refers.isStructural (h : d.Refers id (.structural c)) : d.IsStructural c :=
  h.1 ▸ h.2

theorem GivesRange.isEnumeration (h : d.GivesRange shape path (.enumeration id)) :
    d.IsEnumeration id := by
  cases h with
  | restricted _ href => exact href.isEnumeration
  | declared _ _ _ href => exact href.isEnumeration

theorem GivesRange.isStructural (h : d.GivesRange shape path (.structural id)) :
    d.IsStructural id := by
  cases h with
  | restricted _ href => exact href.isStructural
  | declared _ _ _ href => exact href.isStructural

/-- A datatype that is not the shape's own is foreign to the dataset and has no
pattern. -/
theorem GivesRange.foreign_of_datatype (h : d.GivesRange shape path (.datatype iri pattern))
    (hd : d.Lacks shape shDatatype) : ¬d.Declares iri ∧ pattern = none := by
  cases h with
  | restricted _ href => exact href.elim
  | declared _ _ _ href => exact href.elim
  | typed _ hdatatype _ => exact absurd hdatatype.holds (hd _)
  | foreign _ _ _ hno => exact ⟨hno, rfl⟩

theorem Describes.reflects (h : d.Renders metadata m) {f : PropertyFacts}
    (hf : d.Describes shape f) {p : Property} (hp : p = f.withName p.name) :
    d.Reflects m shape p := by
  refine ⟨⟨f, hf, hp⟩, fun _ hdatatype iri pattern hrange => ?_⟩
  have hgives : d.GivesRange shape f.path p.range := by
    rw [hp]
    exact hf.range
  rw [hrange] at hgives
  obtain ⟨hno, hpattern⟩ := hgives.foreign_of_datatype hdatatype
  refine ⟨h.enumById?_eq_none fun he => ?_, h.classById?_eq_none fun hc => ?_, hpattern⟩
  · exact hno he.1
  · exact hno hc.1

theorem Renders.reflects (h : d.Renders metadata m) {c : Class} (hc : c ∈ m.classes) :
    ∃ ps, c.properties.Perm ps ∧
      List.Forall₂ (d.Reflects m) (d.objects (.iri c.id) shProperty) ps := by
  obtain ⟨f, hf, hnamed⟩ := h.described c hc
  obtain ⟨ps, hperm, hps⟩ := hnamed.properties
  rw [hnamed.id]
  refine ⟨ps, hperm, ?_⟩
  exact forall₂_trans hf.properties hps fun shape pf p hpf hp => hpf.reflects h hp

theorem Renders.exists_givesRange (h : d.Renders metadata m) {c : Class} (hc : c ∈ m.classes)
    {p : Property} (hp : p ∈ c.properties) : ∃ shape path, d.GivesRange shape path p.range := by
  obtain ⟨ps, hperm, hps⟩ := h.reflects hc
  obtain ⟨shape, -, hreflects⟩ := exists_of_forall₂ hps.flip (hperm.mem_iff.1 hp)
  obtain ⟨⟨f, hf, hname⟩, -⟩ := hreflects
  refine ⟨shape, f.path, ?_⟩
  rw [hname]
  exact hf.range

/-- References in a model lead to its own enumerations and classes. -/
theorem closed_of_build (hg : g.AnswersFrom d)
    (h : Model.build g context metadata = .ok m) : d.Closed m := by
  have hm := Model.renders_of_build hg h
  refine ⟨?_, ?_, fun c hc => hm.reflects hc, ?_, ?_⟩
  · intro c hc p hp id hrange
    obtain ⟨shape, path, hgives⟩ := hm.exists_givesRange hc hp
    rw [hrange] at hgives
    exact hm.exists_enumById? hgives.isEnumeration
  · intro c hc p hp id hrange
    obtain ⟨shape, path, hgives⟩ := hm.exists_givesRange hc hp
    rw [hrange] at hgives
    exact hm.exists_classById? hgives.isStructural
  · intro c hc id hid
    exact hm.exists_classById? ((hm.mem_parents hc id).1 hid).1
  · intro c hc id hid
    obtain ⟨e, he, heid, -⟩ := (hm.mem_derived c hc id).1 hid
    exact exists_find?_of_mem_map Class.id (List.mem_map.2 ⟨e, he, heid⟩)

set_option maxRecDepth 10000 in
theorem closed_carPark :
    Model.build carPark.source (fun t => t) (.ofNamespace defaultMetadataNamespace) =
      .ok carParkModel ∧ carPark.Closed carParkModel := by
  have h : Model.build carPark.source (fun t => t) (.ofNamespace defaultMetadataNamespace) =
      .ok carParkModel := by rfl
  exact ⟨h, closed_of_build (Source.answersFrom_source carPark) h⟩

end Dataset
end OntologyModel

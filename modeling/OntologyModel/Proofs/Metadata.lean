/-
Metadata decides two fields of a class and nothing else.

The metadata of a class is read before anything else is, so that an unknown word there hides
whatever would be found wrong afterwards.  Where no such word is met, the construction comes to
the same end as one that reads no metadata at all; and that one has no namespace to depend on.
-/
import OntologyModel.Proofs.Arrangement
import OntologyModel.Proofs.Models
import OntologyModel.Proofs.Names
import OntologyModel.Proofs.Scope

namespace OntologyModel

open Vocabulary
open Dataset (carPark carParkModel)

variable {g : Source} {k : Kinds} {m : Metadata} {classId : String} {context : String → String}

/-! ## Sources that refuse nothing -/

def Source.Total (g : Source) : Prop := ∀ q, ∃ nodes, g.answer q = .ok nodes

theorem Dataset.total_source (d : Dataset) : d.source.Total :=
  fun q => ⟨Triple.answer d.triples q, rfl⟩

theorem Source.Total.run_value (hg : g.Total) (s : Node) (p : String) :
    ∃ v, (Inquiry.value s p).run g = .ok v := by
  obtain ⟨nodes, hnodes⟩ := hg (.objects s p)
  refine ⟨nodes.head?, ?_⟩
  rw [Inquiry.value, Inquiry.run_bind, Inquiry.objects, Inquiry.run_ask _ _ hnodes]
  rfl

/-! ## Outcomes without an unknown word -/

/-- It is not an unknown referenceable value that the computation ends with. -/
def Legible {α : Type} (x : Except ModelError α) : Prop :=
  ∀ cls value, x ≠ .error (.unknownReferenceableValue cls value)

/-- If the first outcome is legible, it is the second one, up to a relation of values. -/
def Follows {α β : Type} (R : α → β → Prop) (x : Except ModelError α) (y : Except ModelError β) :
    Prop := Legible x → Parallel Eq R x y

section Follows

variable {α β γ δ : Type} {R : α → β → Prop} {S : γ → δ → Prop} {x : Except ModelError α}
  {y : Except ModelError β} {f : α → Except ModelError γ}

theorem Legible.of_bind (h : Legible (x >>= f)) : Legible x := by
  intro cls value hx
  rw [hx] at h
  exact h cls value rfl

theorem legible_ok (a : α) : Legible (.ok a) := fun _ _ h => nomatch h

theorem Follows.bind (hx : Follows R x y) {l : β → Except ModelError δ}
    (hf : ∀ a b, R a b → Follows S (f a) (l b)) : Follows S (x >>= f) (y >>= l) := by
  intro h
  cases hx h.of_bind with
  | ok hab => exact hf _ _ hab h
  | error he => exact .error he

/-- A computation that only fails over an unknown word leaves no trace in the outcome. -/
theorem Follows.skip (hx : Legible x → ∃ a, x = .ok a) {z : Except ModelError δ}
    (hf : ∀ a, Follows S (f a) z) : Follows S (x >>= f) z := by
  intro h
  obtain ⟨a, rfl⟩ := hx h.of_bind
  exact hf a h

theorem follows_self {R : α → α → Prop} (h : ∀ a, R a a) : Follows R x x :=
  fun _ => .of_self fun a _ => h a

end Follows

/-! ## Classes -/

def Class.withoutMetadata (c : Class) : Class :=
  { c with idProperty := none, refable := .optional }

def Class.SameButMetadata (c c' : Class) : Prop := c.withoutMetadata = c'.withoutMetadata

namespace ClassFacts

def withoutMetadata (c : ClassFacts) : ClassFacts :=
  { c with idProperty := none, refable := .optional }

def SameButMetadata (c c' : ClassFacts) : Prop := c.withoutMetadata = c'.withoutMetadata

def readPlain (k : Kinds) (classId : String) : Inquiry ClassFacts := do
  let parentIds ← readParents k classId
  let properties ← Shape.properties k classId
  let comment ← Inquiry.textOrEmpty (.iri classId) rdfsComment
  return ⟨classId, .optional, none, parentIds, properties, comment⟩

theorem read_eq_readPlain (k : Kinds) (m : Metadata) (classId : String) :
    read k m classId = do
      let refable ← readRefable m classId
      let idProperty ← Inquiry.value (.iri classId) m.idPropertyName
      let c ← readPlain k classId
      return { c with refable, idProperty := idProperty.map Node.text } := by
  simp only [read, readPlain, bind_assoc, pure_bind]

theorem exists_readRefable (hg : g.Total) (h : Legible ((readRefable m classId).run g)) :
    ∃ refable, (readRefable m classId).run g = .ok refable := by
  cases hread : (readRefable m classId).run g with
  | ok refable => exact ⟨refable, rfl⟩
  | error e =>
    have hkeeps : (readRefable m classId).Keeps (Question.InFootprint m) fun e =>
        ∃ value, e = .unknownReferenceableValue classId value := readRefable_keeps
    rcases hkeeps.of_run_error hread with hown | hrefused
    · obtain ⟨value, rfl⟩ := hown
      exact absurd hread (h classId value)
    · obtain ⟨q, cause, hq, -⟩ := hrefused
      obtain ⟨nodes, hnodes⟩ := hg q
      rw [hq] at hnodes
      cases hnodes

theorem read_follows (hg : g.Total) (k : Kinds) (m : Metadata) (classId : String) :
    Follows SameButMetadata ((read k m classId).run g) ((readPlain k classId).run g) := by
  rw [read_eq_readPlain, Inquiry.run_bind]
  refine .skip (exists_readRefable hg) fun refable => ?_
  rw [Inquiry.run_bind]
  refine .skip (fun _ => hg.run_value _ _) fun idProperty => ?_
  rw [Inquiry.run_bind]
  cases (readPlain k classId).run g with
  | ok c => exact fun _ => .ok rfl
  | error e => exact fun _ => .error rfl

theorem readAll_follows (hg : g.Total) (k : Kinds) (m : Metadata) (ids : List String) :
    Follows (List.Forall₂ SameButMetadata) ((readAll k m ids).run g)
      ((ids.mapM (readPlain k)).run g) := by
  induction ids with
  | nil => exact fun _ => .ok .nil
  | cons classId rest ih =>
    rw [readAll, List.mapM_cons, Inquiry.run_bind, Inquiry.run_bind]
    refine (read_follows hg k m classId).bind fun c c' hc => ?_
    rw [Inquiry.run_bind, Inquiry.run_bind]
    exact ih.bind fun cs cs' hcs => fun _ => .ok (.cons hc hcs)

theorem SameButMetadata.namedIn {c c' : ClassFacts} (h : c.SameButMetadata c') :
    (c.namedIn context).SameButMetadata (c'.namedIn context) := by
  have hfacts : c.withoutMetadata = c'.withoutMetadata := h
  have hnamed := congrArg (fun f => (ClassFacts.namedIn context f).withoutMetadata) hfacts
  exact hnamed

end ClassFacts

namespace Class

theorem coupling_sameButMetadata : Coupling SameButMetadata where
  id {c c'} h := by
    have hclass : c.withoutMetadata = c'.withoutMetadata := h
    have hid := congrArg Class.id hclass
    exact hid
  parentIds {c c'} h := by
    have hclass : c.withoutMetadata = c'.withoutMetadata := h
    have hparents := congrArg Class.parentIds hclass
    exact hparents
  link {c c'} h ids := by
    have hclass : c.withoutMetadata = c'.withoutMetadata := h
    have hlinked := congrArg (fun c => { c with derivedIds := ids }) hclass
    exact hlinked

end Class

/-! ## Models -/

namespace ModelFacts

def ofGraphPlain : Inquiry ModelFacts := do
  let kinds ← Kinds.ofGraph
  let classes ← kinds.classIds.mapM (ClassFacts.readPlain kinds)
  return ⟨kinds, classes⟩

theorem ofGraph_follows (hg : g.Total) (m : Metadata) :
    Follows (fun f f' => f.kinds = f'.kinds ∧
        List.Forall₂ ClassFacts.SameButMetadata f.classes f'.classes)
      ((ofGraph m).run g) (ofGraphPlain.run g) := by
  rw [ofGraph, ofGraphPlain, Inquiry.run_bind, Inquiry.run_bind]
  refine (follows_self fun _ => rfl).bind (R := Eq) fun kinds kinds' hkinds => ?_
  rw [← hkinds, Inquiry.run_bind, Inquiry.run_bind]
  exact (ClassFacts.readAll_follows hg kinds m kinds.classIds).bind fun cs cs' hcs =>
    fun _ => .ok ⟨rfl, hcs⟩

end ModelFacts

namespace Model

def withoutMetadata (m : Model) : Model := { m with classes := m.classes.map Class.withoutMetadata }

def buildPlain (g : Source) (context : String → String) : Except ModelError Model :=
  ModelFacts.ofGraphPlain.run g >>= fun facts => (facts.draft context).arrange

theorem withoutMetadata_eq {a b : Model} (henums : a.enums = b.enums)
    (hclasses : List.Forall₂ Class.SameButMetadata a.classes b.classes) :
    a.withoutMetadata = b.withoutMetadata := by
  have hmap : a.classes.map Class.withoutMetadata = b.classes.map Class.withoutMetadata := by
    rw [← List.forall₂_eq_eq_eq, List.forall₂_map_left_iff, List.forall₂_map_right_iff]
    exact hclasses
  rw [withoutMetadata, withoutMetadata, hmap, henums]

theorem build_follows (hg : g.Total) (context : String → String) (m : Metadata) :
    Follows (fun a b => a.withoutMetadata = b.withoutMetadata) (build g context m)
      (buildPlain g context) := by
  rw [build_eq, buildPlain]
  refine (ModelFacts.ofGraph_follows hg m).bind fun f f' hf => fun _ => ?_
  obtain ⟨hkinds, hfacts⟩ := hf
  have hdraft : List.Forall₂ Class.SameButMetadata (f.draft context).classes
      (f'.draft context).classes := by
    show List.Forall₂ _ (f.classes.map _) (f'.classes.map _)
    rw [List.forall₂_map_left_iff, List.forall₂_map_right_iff]
    exact hfacts.imp fun _ _ hc => hc.namedIn
  refine (arrange_parallel Class.coupling_sameButMetadata hdraft).mono (fun _ _ he => he) ?_
  intro a b hab
  obtain ⟨ha, hb, hclasses⟩ := hab
  refine withoutMetadata_eq ?_ hclasses
  rw [ha, hb, ModelFacts.draft, ModelFacts.draft, hkinds]

/-- Two metadata namespaces lead to one error or to models that differ in metadata only, unless
an unknown word is met in one of them. -/
theorem build_parallel_of_namespaces (hg : g.Total) (context : String → String) {ns ns' : String}
    (h : Legible (build g context (.ofNamespace ns)))
    (h' : Legible (build g context (.ofNamespace ns'))) :
    Parallel Eq (fun a b => a.withoutMetadata = b.withoutMetadata)
      (build g context (.ofNamespace ns)) (build g context (.ofNamespace ns')) := by
  have hplain := build_follows hg context (.ofNamespace ns) h
  have hplain' := build_follows hg context (.ofNamespace ns') h'
  refine (hplain.join hplain').mono (fun _ _ he => he) ?_
  intro a b hab
  obtain ⟨c, hac, hbc⟩ := hab
  exact hac.trans hbc.symm

def plates : Dataset :=
  carPark ++
    [⟨.iri "urn:Car", "urn:road#referenceable", .literal "no" .plain, none⟩,
      ⟨.iri "urn:Car", "urn:road#idPropertyName", .literal "plate" .plain, none⟩,
      ⟨.iri "urn:Car", "urn:rail#referenceable", .literal "always" .plain, none⟩]

def platesModel (idProperty : Option String) (refable : Refable) : Model where
  enums := carParkModel.enums
  classes := carParkModel.classes.map fun c =>
    if c.id = "urn:Car" then { c with idProperty, refable } else c

set_option maxRecDepth 10000 in
theorem build_plates_of_namespaces :
    plates.source.Total ∧
      build plates.source (fun t => t) (.ofNamespace "urn:road#") =
        .ok (platesModel (some "plate") .no) ∧
      build plates.source (fun t => t) (.ofNamespace "urn:rail#") =
        .ok (platesModel none .always) ∧
      (platesModel (some "plate") .no).withoutMetadata =
        (platesModel none .always).withoutMetadata := by
  have hroad : build plates.source (fun t => t) (.ofNamespace "urn:road#") =
      .ok (platesModel (some "plate") .no) := by rfl
  have hrail : build plates.source (fun t => t) (.ofNamespace "urn:rail#") =
      .ok (platesModel none .always) := by rfl
  have hg := plates.total_source
  have hparallel := build_parallel_of_namespaces hg (fun t => t) (hroad ▸ legible_ok _)
    (hrail ▸ legible_ok _)
  rw [hroad, hrail] at hparallel
  refine ⟨hg, hroad, hrail, ?_⟩
  cases hparallel with
  | ok h => exact h

end Model
end OntologyModel

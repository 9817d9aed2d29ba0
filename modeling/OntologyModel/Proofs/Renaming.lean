/-
Other names for blank nodes.

The id of a blank node is no part of what a dataset says, and a reader of graph text
makes ids up.  As long as no two blank nodes get one id and no blank node stands where a
text is expected, a dataset resembles every renaming of it.  What remains of the ids is
the order of nodes: the IRIs among the objects of an IRI keep their places, in front, and
the other objects are rearranged.
-/
import OntologyModel.Proofs.Resemblance
import Mathlib.Data.Set.Function

namespace OntologyModel

open Vocabulary

/-! ## Renaming -/

namespace Node

/-- The node with the id of a blank node exchanged. -/
def rename (f : String → String) : Node → Node
  | .blank id => .blank (f id)
  | n => n

def isIri : Node → Bool
  | .iri _ => true
  | _ => false

variable {f : String → String} {n : Node} {t : String}

theorem rename_eq_iri : n.rename f = .iri t ↔ n = .iri t := by
  cases n <;> simp [rename]

theorem rename_eq_self (hn : ∀ id, n ≠ .blank id) : n.rename f = n := by
  cases n with
  | iri t => rfl
  | blank id => exact absurd rfl (hn id)
  | literal t => rfl

theorem isIri_rename (n : Node) : (n.rename f).isIri = n.isIri := by
  cases n <;> rfl

theorem isIri_iff : n.isIri = true ↔ ∃ t, n = .iri t := by
  cases n <;> simp [isIri]

/-- IRIs stand in front of all other nodes. -/
theorem eq_filter_isIri_append {l : List Node} (hl : l.Pairwise fun a b => before a b = true) :
    l = l.filter isIri ++ l.filter fun n => !n.isIri := by
  refine Text.eq_of_ascending strictOrder_before hl ?_ fun n => ?_
  · refine List.pairwise_append.2 ⟨hl.filter _, hl.filter _, fun a ha b hb => ?_⟩
    obtain ⟨t, rfl⟩ := isIri_iff.1 (List.mem_filter.1 ha).2
    have hb' := (List.mem_filter.1 hb).2
    cases b with
    | iri t => exact absurd hb' (by simp [isIri])
    | blank id => rfl
    | literal t => rfl
  · rw [List.mem_append, List.mem_filter, List.mem_filter, ← and_or_left]
    exact (and_iff_left (by cases n.isIri <;> simp)).symm

end Node

namespace Resource

def rename (f : String → String) : Resource → Resource
  | .blank id => .blank (f id)
  | r => r

theorem node_rename (f : String → String) (r : Resource) : (r.rename f).node = r.node.rename f := by
  cases r <;> rfl

end Resource

namespace Term

def rename (f : String → String) : Term → Term
  | .resource r => .resource (r.rename f)
  | t => t

theorem node_rename (f : String → String) (t : Term) : (t.rename f).node = t.node.rename f := by
  cases t with
  | resource r => exact r.node_rename f
  | literal text tag => rfl

end Term

def Quad.rename (f : String → String) (q : Quad) : Quad :=
  ⟨q.subject.rename f, q.predicate, q.object.rename f, q.graph.map (Resource.rename f)⟩

def Triple.rename (f : String → String) (t : Triple) : Triple :=
  ⟨t.subject.rename f, t.predicate, t.object.rename f⟩

namespace Dataset

variable {d : Dataset} {m : Metadata} {f : String → String} {s s' o o' : Node} {p id : String}

def rename (f : String → String) (d : Dataset) : Dataset := d.map (Quad.rename f)

theorem triples_rename (f : String → String) (d : Dataset) :
    (d.rename f).triples = d.triples.map (Triple.rename f) := by
  have hgraph : (fun q : Quad => q.graph.isNone) ∘ Quad.rename f = fun q => q.graph.isNone :=
    funext fun q => Option.isNone_map
  rw [triples, rename, triples, List.filter_map, hgraph, List.map_map, List.map_map]
  refine List.map_congr_left fun q _ => ?_
  rw [Function.comp, Function.comp, Triple.rename, Quad.rename, Resource.node_rename,
    Term.node_rename]

theorem holds_rename_iff : (d.rename f).Holds s' p o' ↔
    ∃ s o, d.Holds s p o ∧ s.rename f = s' ∧ o.rename f = o' := by
  rw [Holds, triples_rename, List.mem_map]
  constructor
  · intro hex
    obtain ⟨⟨s, q, o⟩, ht, heq⟩ := hex
    obtain ⟨hs, hp, ho⟩ := Triple.mk.inj heq
    exact ⟨s, o, hp ▸ ht, hs, ho⟩
  · intro hex
    obtain ⟨s, o, ht, rfl, rfl⟩ := hex
    exact ⟨⟨s, p, o⟩, ht, rfl⟩

/-! ## Injective renamings -/

def blankIds (d : Dataset) : Set String :=
  {id | ∃ s p o, d.Holds s p o ∧ (s = .blank id ∨ o = .blank id)}

/-- If a node is blank, then it is one of the default graph. -/
def Knows (d : Dataset) (n : Node) : Prop := ∀ id, n = .blank id → id ∈ d.blankIds

theorem knows_iri (d : Dataset) (t : String) : d.Knows (.iri t) := nofun

theorem Holds.knows_subject (h : d.Holds s p o) : d.Knows s :=
  fun _ hs => ⟨s, p, o, h, .inl hs⟩

theorem Holds.knows_object (h : d.Holds s p o) : d.Knows o :=
  fun _ ho => ⟨s, p, o, h, .inr ho⟩

theorem Knows.rename_inj (hf : Set.InjOn f d.blankIds) (hs : d.Knows s) (hs' : d.Knows s')
    (h : s.rename f = s'.rename f) : s = s' := by
  cases s with
  | iri t => exact (Node.rename_eq_iri.1 h.symm).symm
  | blank id =>
    cases s' with
    | iri t => exact absurd h (by simp [Node.rename])
    | blank id' => exact congrArg Node.blank (hf (hs id rfl) (hs' id' rfl) (Node.blank.inj h))
    | literal t => exact absurd h (by simp [Node.rename])
  | literal t =>
    cases s' with
    | iri t' => exact absurd h (by simp [Node.rename])
    | blank id => exact absurd h (by simp [Node.rename])
    | literal t' => exact h

/-- The objects of a renamed subject are the renamed objects. -/
theorem holds_rename_subject_iff (hf : Set.InjOn f d.blankIds) (hs : d.Knows s) :
    (d.rename f).Holds (s.rename f) p o' ↔ ∃ o, d.Holds s p o ∧ o.rename f = o' := by
  rw [holds_rename_iff]
  constructor
  · intro hex
    obtain ⟨s₁, o, hholds, heq, ho⟩ := hex
    rw [hholds.knows_subject.rename_inj hf hs heq] at hholds
    exact ⟨o, hholds, ho⟩
  · intro hex
    obtain ⟨o, hholds, ho⟩ := hex
    exact ⟨s, o, hholds, rfl, ho⟩

theorem holds_rename_of_iri_iff (hf : Set.InjOn f d.blankIds) :
    (d.rename f).Holds (.iri id) p o' ↔ ∃ o, d.Holds (.iri id) p o ∧ o.rename f = o' :=
  holds_rename_subject_iff hf (d.knows_iri id)

theorem holds_rename_iri_iff (hf : Set.InjOn f d.blankIds) {t : String} (hs : d.Knows s) :
    (d.rename f).Holds (s.rename f) p (.iri t) ↔ d.Holds s p (.iri t) := by
  rw [holds_rename_subject_iff hf hs]
  simp only [Node.rename_eq_iri, exists_eq_right]

/-! ## Renamings and values -/

/-- No blank node stands where a text is read. -/
def Plain (d : Dataset) (m : Metadata) : Prop :=
  ∀ s p id, p ∈ values m → ¬d.Holds s p (.blank id)

theorem plain_of_forall_mem (h : ∀ t ∈ d.triples, t.predicate ∈ values m → t.object.rank ≠ 1) :
    d.Plain m := fun _ _ _ hp ho => h _ ho hp rfl

theorem Plain.alike_rename (hd : d.Plain m) (hf : Set.InjOn f d.blankIds) (hs : d.Knows s) :
    Alike m d s (d.rename f) (s.rename f) := by
  intro p hp o
  rw [holds_rename_subject_iff hf hs]
  have hself {o : Node} (ho : d.Holds s p o) : o.rename f = o := by
    refine Node.rename_eq_self fun id hid => ?_
    exact hd s p id hp (hid ▸ ho)
  constructor
  · intro ho
    exact ⟨o, ho, hself ho⟩
  · intro hex
    obtain ⟨o₁, ho, heq⟩ := hex
    rw [← heq, hself ho]
    exact ho

theorem Plain.resembles_rename (hd : d.Plain m) (hf : Set.InjOn f d.blankIds) :
    Resembles m d (d.rename f) where
  links id _ _ := (holds_rename_iri_iff hf (d.knows_iri id)).symm
  alike id := hd.alike_rename hf (d.knows_iri id)
  shapes id s hs :=
    ⟨s.rename f, (holds_rename_of_iri_iff hf).2 ⟨s, hs, rfl⟩,
      hd.alike_rename hf hs.knows_object⟩
  shapes_back id s' hs' := by
    obtain ⟨s, hs, rfl⟩ := (holds_rename_of_iri_iff hf).1 hs'
    exact ⟨s, hs, hd.alike_rename hf hs.knows_object⟩

/-! ## The order of objects -/

def iriObjects (d : Dataset) (s : Node) (p : String) : List Node :=
  (d.objects s p).filter Node.isIri

def otherObjects (d : Dataset) (s : Node) (p : String) : List Node :=
  (d.objects s p).filter fun n => !n.isIri

theorem mem_iriObjects : o ∈ d.iriObjects s p ↔ d.Holds s p o ∧ o.isIri = true := by
  rw [iriObjects, List.mem_filter, mem_objects]

theorem mem_otherObjects : o ∈ d.otherObjects s p ↔ d.Holds s p o ∧ o.isIri = false := by
  rw [otherObjects, List.mem_filter, mem_objects, Bool.not_eq_true']

theorem objects_eq_append (d : Dataset) (s : Node) (p : String) :
    d.objects s p = d.iriObjects s p ++ d.otherObjects s p :=
  Node.eq_filter_isIri_append (d.pairwise_objects s p)

theorem iriObjects_rename (hf : Set.InjOn f d.blankIds) (id p : String) :
    (d.rename f).iriObjects (.iri id) p = d.iriObjects (.iri id) p := by
  refine Text.eq_of_ascending Node.strictOrder_before ((pairwise_objects _ _ _).filter _)
    ((pairwise_objects _ _ _).filter _) fun o => ?_
  rw [mem_iriObjects, mem_iriObjects]
  refine and_congr_left fun ho => ?_
  obtain ⟨t, rfl⟩ := Node.isIri_iff.1 ho
  exact holds_rename_iri_iff hf (d.knows_iri id)

theorem otherObjects_rename_perm (hf : Set.InjOn f d.blankIds) (id p : String) :
    ((d.rename f).otherObjects (.iri id) p).Perm
      ((d.otherObjects (.iri id) p).map (Node.rename f)) := by
  have hnodup (d : Dataset) : (d.otherObjects (.iri id) p).Nodup :=
    (Text.nodup_of_ascending Node.strictOrder_before (d.pairwise_objects _ _)).filter _
  refine (List.perm_ext_iff_of_nodup (hnodup _) ?_).2 fun o' => ?_
  · refine List.Nodup.map_on (fun o ho o₁ ho₁ heq => ?_) (hnodup d)
    exact (mem_otherObjects.1 ho).1.knows_object.rename_inj hf
      (mem_otherObjects.1 ho₁).1.knows_object heq
  · rw [mem_otherObjects, List.mem_map]
    constructor
    · intro h
      obtain ⟨o, ho, rfl⟩ := (holds_rename_of_iri_iff hf).1 h.1
      rw [Node.isIri_rename] at h
      exact ⟨o, mem_otherObjects.2 ⟨ho, h.2⟩, rfl⟩
    · intro hex
      obtain ⟨o, ho, rfl⟩ := hex
      have ho := mem_otherObjects.1 ho
      exact ⟨(holds_rename_of_iri_iff hf).2 ⟨o, ho.1, rfl⟩, (Node.isIri_rename o).trans ho.2⟩

end Dataset
end OntologyModel

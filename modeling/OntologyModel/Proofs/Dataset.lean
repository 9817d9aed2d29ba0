/-
What a dataset says, apart from the questions put to it.

Everything that is read from a dataset is said here about its triples alone: which
triples hold, which object of a subject and a predicate is the least, and which
IRIs are declared as classes of which kind.  A source answers from a dataset if no
answer of it differs from those triples; it may still refuse a question.
-/
import OntologyModel.Graph.Dataset
import OntologyModel.Proofs.Ascending
import Mathlib.Logic.Relation

namespace OntologyModel
namespace Dataset

variable {d : Dataset} {s o v w : Node} {p : String}

/-! ## Triples -/

def Holds (d : Dataset) (s : Node) (p : String) (o : Node) : Prop :=
  (⟨s, p, o⟩ : Triple) ∈ d.triples

theorem not_holds_literal {t p : String} {o : Node} : ¬d.Holds (.literal t) p o := by
  intro h
  obtain ⟨q, -, hq⟩ := List.mem_map.1 h
  have hsubject := congrArg Triple.subject hq
  cases hr : q.subject with
  | iri t' => rw [hr] at hsubject; exact nomatch hsubject
  | blank b => rw [hr] at hsubject; exact nomatch hsubject

def Lacks (d : Dataset) (s : Node) (p : String) : Prop := ∀ o, ¬d.Holds s p o

structure Least (d : Dataset) (s : Node) (p : String) (v : Node) : Prop where
  holds : d.Holds s p v
  least : ∀ o, d.Holds s p o → v = o ∨ v.before o = true

theorem Least.unique (hv : d.Least s p v) (hw : d.Least s p w) : v = w := by
  rcases hv.least w hw.holds with h | hvw
  · exact h
  · rcases hw.least v hv.holds with h | hwv
    · exact h.symm
    · rw [Node.strictOrder_before.asymm hvw] at hwv
      exact absurd hwv Bool.false_ne_true

/-- An IRI among the objects makes the least of them an IRI. -/
theorem Least.exists_iri (hv : d.Least s p v) {t : String} (ht : d.Holds s p (.iri t)) :
    ∃ t', v = .iri t' := by
  rcases hv.least _ ht with h | h
  · exact ⟨t, h⟩
  · cases v with
    | iri t' => exact ⟨t', rfl⟩
    | blank id => exact absurd h Bool.false_ne_true
    | literal t' => exact absurd h Bool.false_ne_true

/-- What is read as the value of a subject and a predicate: the least object, or
none if there is no object. -/
def IsValue (d : Dataset) (s : Node) (p : String) : Option Node → Prop
  | none => d.Lacks s p
  | some v => d.Least s p v

def objects (d : Dataset) (s : Node) (p : String) : List Node :=
  Triple.answer d.triples (.objects s p)

def subjects (d : Dataset) (p : String) (o : Node) : List Node :=
  Triple.answer d.triples (.subjects p o)

theorem mem_ascending_filterMap {test : Triple → Bool} {f : Triple → Node} {ts : List Triple} :
    o ∈ Text.ascending Node.before
        (ts.filterMap fun t => if test t then some (f t) else none) ↔
      ∃ t ∈ ts, test t = true ∧ f t = o := by
  rw [Text.mem_ascending Node.strictOrder_before, List.mem_filterMap]
  simp only [Option.ite_none_right_eq_some, Option.some.injEq]

theorem mem_objects : o ∈ d.objects s p ↔ d.Holds s p o := by
  rw [objects, Triple.answer, mem_ascending_filterMap]
  constructor
  · intro hex
    obtain ⟨⟨s', p', o'⟩, ht, htest, ho⟩ := hex
    simp only [Bool.and_eq_true, decide_eq_true_eq] at htest ho
    rw [Holds, ← htest.1, ← htest.2, ← ho]
    exact ht
  · intro h
    exact ⟨⟨s, p, o⟩, h, by simp, rfl⟩

theorem mem_subjects_node {r : Resource} : s ∈ d.subjects p r.node ↔ d.Holds s p r.node := by
  have hanswer : d.subjects p r.node = Text.ascending Node.before (d.triples.filterMap fun t =>
      if t.predicate = p && t.object = r.node then some t.subject else none) := by
    cases r <;> rfl
  rw [hanswer, mem_ascending_filterMap]
  constructor
  · intro hex
    obtain ⟨⟨s', p', o'⟩, ht, htest, hs⟩ := hex
    simp only [Bool.and_eq_true, decide_eq_true_eq] at htest hs
    rw [Holds, ← htest.1, ← htest.2, ← hs]
    exact ht
  · intro h
    exact ⟨⟨s, p, r.node⟩, h, by simp, rfl⟩

theorem mem_subjects {t : String} : s ∈ d.subjects p (.iri t) ↔ d.Holds s p (.iri t) :=
  mem_subjects_node (r := .iri t)

theorem pairwise_subjects (d : Dataset) (p : String) (o : Node) :
    (d.subjects p o).Pairwise fun x y => Node.before x y = true := by
  cases o with
  | iri t => exact Text.pairwise_ascending Node.strictOrder_before _
  | blank id => exact Text.pairwise_ascending Node.strictOrder_before _
  | literal t => exact List.Pairwise.nil

theorem nodup_subjects (d : Dataset) (p t : String) : (d.subjects p (.iri t)).Nodup :=
  Text.nodup_of_ascending Node.strictOrder_before (d.pairwise_subjects p (.iri t))

theorem pairwise_objects (d : Dataset) (s : Node) (p : String) :
    (d.objects s p).Pairwise fun x y => Node.before x y = true :=
  Text.pairwise_ascending Node.strictOrder_before _

theorem isValue_head? (d : Dataset) (s : Node) (p : String) :
    d.IsValue s p (d.objects s p).head? := by
  have hsorted := d.pairwise_objects s p
  cases h : d.objects s p with
  | nil =>
    intro o ho
    rw [← mem_objects, h] at ho
    exact absurd ho List.not_mem_nil
  | cons v rest =>
    rw [h] at hsorted
    refine ⟨mem_objects.1 (h ▸ List.mem_cons_self), fun o ho => ?_⟩
    rw [← mem_objects, h] at ho
    rcases List.mem_cons.1 ho with rfl | ho
    · exact .inl rfl
    · exact .inr ((List.pairwise_cons.1 hsorted).1 o ho)

/-! ## Selections of IRIs

The loops over nodes keep those IRIs that have a property.  A node is either kept or
it is left out. -/

theorem iri_mem_cons_of_keep (P : String → Prop) {id : String} (hid : P id) (rest : List Node)
    (x : String) : x = id ∨ .iri x ∈ rest ∧ P x ↔ .iri x ∈ .iri id :: rest ∧ P x := by
  rw [List.mem_cons, Node.iri.injEq, or_and_right]
  refine or_congr_left ⟨fun e => ⟨e, ?_⟩, And.left⟩
  rw [e]
  exact hid

theorem iri_mem_cons_of_skip (P : String → Prop) {node : Node}
    (hnode : ∀ x, node = .iri x → ¬P x) (rest : List Node) (x : String) :
    .iri x ∈ rest ∧ P x ↔ .iri x ∈ node :: rest ∧ P x := by
  rw [List.mem_cons]
  refine and_congr_left fun hx => (or_iff_right fun e => ?_).symm
  exact hnode x e.symm hx

/-! ## Classes -/

def Declares (d : Dataset) (id : String) : Prop :=
  d.Holds (.iri id) Vocabulary.rdfType (.iri Vocabulary.owlClass)

/-- A named individual with an IRI that is an instance of `id`. -/
def HasIndividual (d : Dataset) (id i : String) : Prop :=
  d.Holds (.iri i) Vocabulary.rdfType (.iri id) ∧
    d.Holds (.iri i) Vocabulary.rdfType (.iri Vocabulary.owlNamedIndividual)

def HasIndividuals (d : Dataset) (id : String) : Prop := ∃ i, d.HasIndividual id i

/-- A declared class that has a named individual. -/
def IsEnumeration (d : Dataset) (id : String) : Prop := d.Declares id ∧ d.HasIndividuals id

def IsStructural (d : Dataset) (id : String) : Prop := d.Declares id ∧ ¬d.HasIndividuals id

theorem declares_iff {id : String} : d.Declares id ↔ d.IsEnumeration id ∨ d.IsStructural id :=
  ⟨fun h => (Classical.em _).imp (⟨h, ·⟩) (⟨h, ·⟩), fun h => h.elim And.left And.left⟩

theorem IsStructural.not_isEnumeration {id : String} (h : d.IsStructural id) :
    ¬d.IsEnumeration id := fun he => h.2 he.2

def Extends (d : Dataset) (a b : String) : Prop :=
  d.IsStructural a ∧ d.IsStructural b ∧ d.Holds (.iri a) Vocabulary.rdfsSubClassOf (.iri b)

end Dataset

/-! ## Sources -/

namespace Source

/-- A source without a wrong answer: what it does not refuse, it answers from the
default graph of a dataset. -/
def AnswersFrom (g : Source) (d : Dataset) : Prop :=
  ∀ q nodes, g.answer q = .ok nodes → nodes = Triple.answer d.triples q

theorem answersFrom_source (d : Dataset) : d.source.AnswersFrom d := by
  intro q nodes h
  cases h
  rfl

theorem AnswersFrom.refusing {g : Source} {d : Dataset} (h : g.AnswersFrom d)
    (predicates : List String) : (g.refusing predicates).AnswersFrom d := by
  intro q nodes hq
  rw [Source.refusing] at hq
  dsimp only at hq
  split at hq
  · exact absurd hq (by simp)
  · exact h q nodes hq

end Source
end OntologyModel

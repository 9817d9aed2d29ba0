/-
How the answers of a dataset fit together.

Objects are looked for by their subject and subjects by their object, and both are found in
the same triples.  On the way from quads to triples named graphs are left out and a literal
loses its language and datatype, so that a triple with a literal may come from several quads.
Triples with an IRI or a blank node come from one, and there the two ways of asking are each
other's converse.
-/
import OntologyModel.Proofs.Dataset

namespace OntologyModel

/-! ## Nodes -/

namespace Node

/-- IRIs stand below blank nodes and these below literals; nodes of one kind go by their text. -/
def Below (a b : Node) : Prop := a.rank < b.rank ∨ a.rank = b.rank ∧ a.text < b.text

theorem before_iff {a b : Node} : a.before b = true ↔ a.Below b := by
  rw [before, Bool.or_eq_true, Bool.and_eq_true, decide_eq_true_iff, decide_eq_true_iff,
    Text.before_iff, Below]

end Node

theorem Resource.node_inj {r r' : Resource} : r.node = r'.node ↔ r = r' := by
  cases r <;> cases r' <;> simp [node]

/-! ## Quads as they are kept -/

/-- A term as a store keeps it: a literal has the canonical text of its value. -/
def Term.kept : Term → Term
  | .resource r => .resource r
  | .literal text tag => .literal (Literal.storedText text tag) tag

theorem Term.node_eq_node_iff {t : Term} {r : Resource} :
    t.node = r.node ↔ t.kept = .resource r := by
  cases t with
  | resource r' => rw [node, Resource.node_inj, kept, resource.injEq]
  | literal text tag => cases r <;> simp [node, Resource.node, kept]

theorem Term.node_eq_literal_iff {t : Term} {text : String} :
    t.node = .literal text ↔ ∃ tag, t.kept = .literal text tag := by
  cases t with
  | resource r => cases r <;> simp [node, Resource.node, kept]
  | literal written tag => simp [node, kept]

namespace Dataset

def kept (d : Dataset) : Dataset := d.map fun q => { q with object := q.object.kept }

variable {d : Dataset} {s : Resource} {o : Node} {p : String}

theorem mem_kept {t : Term} {g : Option Resource} :
    ⟨s, p, t, g⟩ ∈ d.kept ↔ ∃ t', ⟨s, p, t', g⟩ ∈ d ∧ t'.kept = t := by
  rw [kept, List.mem_map]
  constructor
  · intro hex
    obtain ⟨⟨s', p', t', g'⟩, hq, heq⟩ := hex
    cases heq
    exact ⟨t', hq, rfl⟩
  · intro hex
    obtain ⟨t', hq, rfl⟩ := hex
    exact ⟨_, hq, rfl⟩

/-- What holds is told by a quad of the default graph. -/
theorem holds_iff : d.Holds s.node p o ↔ ∃ t : Term, ⟨s, p, t, none⟩ ∈ d ∧ t.node = o := by
  rw [Holds, triples, List.mem_map]
  constructor
  · intro hex
    obtain ⟨⟨s', p', t, g⟩, hq, heq⟩ := hex
    obtain ⟨hmem, hgraph⟩ := List.mem_filter.1 hq
    obtain ⟨hs, rfl, ho⟩ := Triple.mk.inj heq
    cases Option.isNone_iff_eq_none.1 hgraph
    cases Resource.node_inj.1 hs
    exact ⟨t, hmem, ho⟩
  · intro hex
    obtain ⟨t, hmem, rfl⟩ := hex
    exact ⟨_, List.mem_filter.2 ⟨hmem, rfl⟩, rfl⟩

theorem holds_node_iff {r : Resource} :
    d.Holds s.node p r.node ↔ ⟨s, p, .resource r, none⟩ ∈ d.kept := by
  rw [holds_iff, mem_kept]
  exact exists_congr fun t => and_congr_right fun _ => Term.node_eq_node_iff

theorem holds_literal_iff {text : String} :
    d.Holds s.node p (.literal text) ↔ ∃ tag, ⟨s, p, .literal text tag, none⟩ ∈ d.kept := by
  rw [holds_iff]
  constructor
  · intro hex
    obtain ⟨t, hmem, ht⟩ := hex
    obtain ⟨tag, htag⟩ := Term.node_eq_literal_iff.1 ht
    exact ⟨tag, mem_kept.2 ⟨t, hmem, htag⟩⟩
  · intro hex
    obtain ⟨tag, hkept⟩ := hex
    obtain ⟨t, hmem, ht⟩ := mem_kept.1 hkept
    exact ⟨t, hmem, Term.node_eq_literal_iff.2 ⟨tag, ht⟩⟩

/-! ## Answers -/

theorem asserts_source (d : Dataset) (n : Node) (p : String) (o : Node) :
    d.source.asserts n p o = .ok (decide (o ∈ d.objects n p)) := by
  show Except.ok ((d.objects n p).contains o) = _
  rw [List.contains_eq_mem]

theorem objects_literal (d : Dataset) (text p : String) : d.objects (.literal text) p = [] :=
  List.eq_nil_iff_forall_not_mem.2 fun _ ho => not_holds_literal (mem_objects.1 ho)

theorem least_head? {n v : Node} (h : (d.objects n p).head? = some v) :
    v ∈ d.objects n p ∧ ∀ o ∈ d.objects n p, v = o ∨ v.Below o := by
  have hvalue := d.isValue_head? n p
  rw [h] at hvalue
  refine ⟨mem_objects.2 hvalue.holds, fun o ho => ?_⟩
  exact (hvalue.least o (mem_objects.1 ho)).imp_right Node.before_iff.1

theorem exists_iri_head? {n : Node} {t : String} (h : .iri t ∈ d.objects n p) :
    ∃ t', (d.objects n p).head? = some (.iri t') := by
  have hvalue := d.isValue_head? n p
  cases hhead : (d.objects n p).head? with
  | none =>
    rw [List.head?_eq_none_iff.1 hhead] at h
    exact absurd h List.not_mem_nil
  | some v =>
    rw [hhead] at hvalue
    obtain ⟨t', rfl⟩ := hvalue.exists_iri (mem_objects.1 h)
    exact ⟨t', rfl⟩

/-- Answers stand in ascending order.  The objects of a subject are what is asserted of it; an
IRI or a blank node is one of them just if the subject is among its subjects, and just if a
quad of the default graph says so, and a literal just if such a quad has a literal of its text.
The value is the least object, and so an IRI where there is one.  Nothing is told of literals
as subjects, and they are not looked up as objects. -/
theorem answers_agree (d : Dataset) (p : String) :
    (∀ n : Node, d.source.objects n p = .ok (d.objects n p) ∧
      (d.objects n p).Pairwise Node.Below ∧
      d.source.subjects p n = .ok (d.subjects p n) ∧ (d.subjects p n).Pairwise Node.Below) ∧
    (∀ n o : Node, d.source.asserts n p o = .ok (decide (o ∈ d.objects n p))) ∧
    (∀ s o : Resource, (o.node ∈ d.objects s.node p ↔ s.node ∈ d.subjects p o.node) ∧
      (o.node ∈ d.objects s.node p ↔ ⟨s, p, .resource o, none⟩ ∈ d.kept)) ∧
    (∀ (s : Resource) (text : String), .literal text ∈ d.objects s.node p ↔
      ∃ tag, ⟨s, p, .literal text tag, none⟩ ∈ d.kept) ∧
    (∀ n : Node, d.source.value n p = .ok (d.objects n p).head? ∧
      (∀ v, (d.objects n p).head? = some v →
        v ∈ d.objects n p ∧ ∀ o ∈ d.objects n p, v = o ∨ v.Below o) ∧
      ∀ t, .iri t ∈ d.objects n p → ∃ t', (d.objects n p).head? = some (.iri t')) ∧
    ∀ text, d.objects (.literal text) p = [] ∧ d.subjects p (.literal text) = [] := by
  refine ⟨fun n => ⟨rfl, ?_, rfl, ?_⟩, fun n o => d.asserts_source n p o, fun s o => ⟨?_, ?_⟩,
    fun s text => ?_, fun n => ⟨rfl, fun v => least_head?, fun t => exists_iri_head?⟩,
    fun text => ⟨d.objects_literal text p, rfl⟩⟩
  · exact (d.pairwise_objects n p).imp Node.before_iff.1
  · exact (d.pairwise_subjects p n).imp Node.before_iff.1
  · rw [mem_objects, mem_subjects_node]
  · rw [mem_objects, holds_node_iff]
  · rw [mem_objects, holds_literal_iff]

/-- A car in two colours, one of them told in words, and a third one only planned. -/
def resprayed : Dataset :=
  [⟨.iri "urn:car", "urn:colour", .literal "red" .plain, none⟩,
    ⟨.iri "urn:car", "urn:colour", .literal "red" (.language "en"), none⟩,
    ⟨.iri "urn:car", "urn:colour", .resource (.blank "mix"), none⟩,
    ⟨.iri "urn:car", "urn:colour", .resource (.iri "urn:Red"), none⟩,
    ⟨.iri "urn:car", "urn:colour", .resource (.iri "urn:Grey"), some (.iri "urn:plans")⟩]

theorem answers_agree_resprayed :
    resprayed.source.value (.iri "urn:car") "urn:colour" = .ok (some (.iri "urn:Red")) ∧
    (∀ o ∈ resprayed.objects (.iri "urn:car") "urn:colour",
      .iri "urn:Red" = o ∨ Node.Below (.iri "urn:Red") o) ∧
    Node.iri "urn:car" ∈ resprayed.subjects "urn:colour" (.blank "mix") ∧
    Node.literal "red" ∈ resprayed.objects (.iri "urn:car") "urn:colour" ∧
    Node.iri "urn:Grey" ∉ resprayed.objects (.iri "urn:car") "urn:colour" := by
  obtain ⟨-, -, hnode, hliteral, hvalue, -⟩ := answers_agree resprayed "urn:colour"
  obtain ⟨hread, hleast, hiri⟩ := hvalue (.iri "urn:car")
  have hred : Node.iri "urn:Red" ∈ resprayed.objects (.iri "urn:car") "urn:colour" :=
    (hnode (.iri "urn:car") (.iri "urn:Red")).2.2 (by decide)
  have hmix : Node.blank "mix" ∈ resprayed.objects (.iri "urn:car") "urn:colour" :=
    (hnode (.iri "urn:car") (.blank "mix")).2.2 (by decide)
  have hgrey : Node.iri "urn:Grey" ∉ resprayed.objects (.iri "urn:car") "urn:colour" :=
    mt (hnode (.iri "urn:car") (.iri "urn:Grey")).2.1 (by decide)
  obtain ⟨t, ht⟩ := hiri "urn:Red" hred
  -- Red is the only IRI among the objects.
  have hsame : t = "urn:Red" := by
    have hmem := (hnode (.iri "urn:car") (.iri t)).2.1 (hleast _ ht).1
    simpa [kept, resprayed, Term.kept] using hmem
  subst hsame
  refine ⟨hread.trans (congrArg Except.ok ht), (hleast _ ht).2, ?_, ?_, hgrey⟩
  · exact (hnode (.iri "urn:car") (.blank "mix")).1.1 hmix
  · exact (hliteral (.iri "urn:car") "red").2 ⟨.plain, by decide⟩

end Dataset
end OntologyModel

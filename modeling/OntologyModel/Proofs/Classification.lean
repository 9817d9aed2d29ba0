/-
Declared classes that are told apart and named at once.

The construction tells the kinds of all classes apart before it names an enumeration.  A
classification that gives each enumeration its name as soon as it is found, and keeps the ids
of both kinds beside the enumerations, comes to the same: its declared classes are parted into
enumerations, each with its named individuals for values, and structural classes.
-/
import OntologyModel.Proofs.Building
import OntologyModel.Proofs.Enumerations
import OntologyModel.Proofs.Prefixes
import OntologyModel.Proofs.Scope

namespace OntologyModel

open Vocabulary
open Building (asking naming run_asking_bind run_naming_bind run_pure)

variable {g : Source} {d : Dataset} {t : NameTable} {E : ModelError → Prop}

/-- What is known of the declared classes, the ids of each kind in ascending order. -/
structure Classification where
  enums : List Enum
  enumIds : List String
  classIds : List String
deriving DecidableEq, Repr

namespace Classification

def empty : Classification := ⟨[], [], []⟩

def enumBefore (a b : Enum) : Bool := Text.before a.id b.id

def declare (c : Classification) (classId : String) : Building Classification := do
  let values ← asking (Kinds.enumValues classId)
  if values.isEmpty then
    asking (Inquiry.found (.structuralClass classId))
    return { c with classIds := Text.insertDistinct Text.before classId c.classIds }
  else
    asking (Inquiry.found (.enumerationClass classId values.length))
    let className ← naming (Naming.className classId)
    let comment ← asking (Inquiry.textOrEmpty (.iri classId) rdfsComment)
    return { c with
      enums := c.enums ++ [⟨classId, className, values, comment⟩]
      enumIds := Text.insertDistinct Text.before classId c.enumIds }

def declareAll (c : Classification) : List Node → Building Classification
  | [] => return c
  | .iri classId :: rest => do
    let c' ← c.declare classId
    declareAll c' rest
  | node :: rest => do
    asking (Inquiry.found (.anonymousClass node))
    declareAll c rest

def sorted (c : Classification) : Classification :=
  { c with enums := Text.sortStable enumBefore c.enums }

def ofGraph : Building Classification := do
  let declared ← asking (Inquiry.subjects rdfType (.iri owlClass))
  let c ← declareAll empty declared
  return c.sorted

end Classification

/-! ## Naming as one goes -/

/-- The kinds of the classes that a graph declares, before they are sorted. -/
def Kinds.asDeclared : Inquiry Kinds := do
  empty.declareAll (← Inquiry.subjects rdfType (.iri owlClass))

theorem Kinds.ofGraph_eq :
    ofGraph = asDeclared >>= fun k =>
      pure { k with enums := Text.sortStable enumBefore k.enums } :=
  (bind_assoc _ _ _).symm

namespace EnumFacts

theorem run_allNamed_cons (e : EnumFacts) (es : List EnumFacts) (t : NameTable) :
    (allNamed (e :: es)).run t =
      ((e.named.run t).1 :: ((allNamed es).run (e.named.run t).2).1,
        ((allNamed es).run (e.named.run t).2).2) := rfl

theorem run_allNamed_concat (es : List EnumFacts) (e : EnumFacts) (t : NameTable) :
    (allNamed (es ++ [e])).run t =
      (((allNamed es).run t).1 ++ [(e.named.run ((allNamed es).run t).2).1],
        (e.named.run ((allNamed es).run t).2).2) := by
  induction es generalizing t with
  | nil => rfl
  | cons e' es ih =>
    rw [List.cons_append, run_allNamed_cons, ih, run_allNamed_cons, List.cons_append]

end EnumFacts

namespace Classification

def ofKinds (k : Kinds) : Naming Classification := do
  let enums ← EnumFacts.allNamed k.enums
  return ⟨enums, Text.ascendingTexts k.enumIds.reverse, k.classIds⟩

theorem ofKinds_concat (k : Kinds) (e : EnumFacts) (t : NameTable) :
    (ofKinds { k with enums := k.enums ++ [e] }).run t =
      let named := (ofKinds k).run t
      ({ named.1 with
          enums := named.1.enums ++ [(e.named.run named.2).1]
          enumIds := Text.insertDistinct Text.before e.id named.1.enumIds },
        (e.named.run named.2).2) := by
  have hids : (Kinds.enumIds { k with enums := k.enums ++ [e] }).reverse =
      e.id :: k.enumIds.reverse := by
    simp [Kinds.enumIds]
  show (Classification.mk ((EnumFacts.allNamed (k.enums ++ [e])).run t).1
    (Text.ascendingTexts (Kinds.enumIds { k with enums := k.enums ++ [e] }).reverse) k.classIds,
    ((EnumFacts.allNamed (k.enums ++ [e])).run t).2) = _
  rw [hids, EnumFacts.run_allNamed_concat]
  rfl

/-- A class that is declared after all others were named might as well have been declared
before. -/
theorem declare_splits (k : Kinds) (classId : String) :
    (naming (ofKinds k) >>= fun c => c.declare classId).Splits (k.declare classId) ofKinds := by
  intro t
  rw [run_naming_bind, declare, Kinds.declare, run_asking_bind, bind_assoc]
  refine congrArg (_ >>= ·) (funext fun values => ?_)
  cases values with
  | nil => rfl
  | cons v values =>
    simp only [List.isEmpty_cons, Bool.false_eq_true, if_false, run_asking_bind, run_naming_bind,
      run_pure, bind_assoc, pure_bind, ofKinds_concat]
    rfl

theorem declareAll_splits (k : Kinds) (nodes : List Node) :
    (naming (ofKinds k) >>= fun c => c.declareAll nodes).Splits (k.declareAll nodes) ofKinds := by
  induction nodes generalizing k with
  | nil => exact fun _ => rfl
  | cons node rest ih =>
    intro t
    -- A node without an IRI is passed over before and after the naming alike.
    have skip (hnode : ∀ id, node = .iri id → False) :
        (naming (ofKinds k) >>= fun c => c.declareAll (node :: rest)).run t =
          k.declareAll (node :: rest) >>= fun k' => pure ((ofKinds k').run t) := by
      rw [run_naming_bind, declareAll, run_asking_bind, Kinds.declareAll, bind_assoc]
      · exact congrArg (_ >>= ·) (funext fun _ => ih k t)
      · exact hnode
      · exact hnode
    cases node with
    | iri id =>
      show ((naming (ofKinds k) >>= fun c => c.declare id) >>= fun c => c.declareAll rest).run t = _
      rw [(declare_splits k id).run_bind, Kinds.declareAll, bind_assoc]
      exact congrArg (_ >>= ·) (funext fun k' => ih k' t)
    | blank b => exact skip nofun
    | literal text => exact skip nofun

/-- A classification tells the kinds of the declared classes apart, names the enumerations
afterwards and sorts them last. -/
theorem ofGraph_splits :
    ofGraph.Splits Kinds.asDeclared fun k => do return (← ofKinds k).sorted := by
  intro t
  rw [ofGraph, Kinds.asDeclared, run_asking_bind, bind_assoc]
  refine congrArg (_ >>= ·) (funext fun declared => ?_)
  exact (declareAll_splits Kinds.empty declared).run_bind (fun c => pure c.sorted) t

end Classification

/-! ## The order of enumerations -/

namespace Kinds

theorem declare_enumIds (k : Kinds) (id : String) :
    (k.declare id).Ends g (fun k' => k'.enumIds = k.enumIds ∨ k'.enumIds = k.enumIds ++ [id])
      fun _ => True := by
  refine Inquiry.ends_any.bind fun values _ => ?_
  cases values with
  | nil => exact Inquiry.Ends.found (Inquiry.ends_pure (.inl rfl))
  | cons v values =>
    refine Inquiry.Ends.found (Inquiry.ends_any.bind fun comment _ => Inquiry.ends_pure (.inr ?_))
    exact List.map_append

theorem declareAll_enumIds (k : Kinds) (nodes : List Node) :
    (k.declareAll nodes).Ends g
      (fun k' => ∃ ids, k'.enumIds = k.enumIds ++ ids ∧ (ids.map Node.iri).Sublist nodes)
      fun _ => True := by
  induction nodes generalizing k with
  | nil => exact Inquiry.ends_pure ⟨[], (List.append_nil _).symm, List.Sublist.slnil⟩
  | cons node rest ih =>
    have skip : (k.declareAll rest).Ends g
        (fun k' => ∃ ids, k'.enumIds = k.enumIds ++ ids ∧ (ids.map Node.iri).Sublist (node :: rest))
        fun _ => True := by
      refine (ih k).mono (fun k' hk' => ?_) fun e he => he
      obtain ⟨ids, hids, hsub⟩ := hk'
      exact ⟨ids, hids, hsub.cons node⟩
    cases node with
    | iri id =>
      refine (declare_enumIds k id).bind fun k₁ hk₁ => (ih k₁).mono (fun k' hk' => ?_) fun e he => he
      obtain ⟨ids, hids, hsub⟩ := hk'
      rcases hk₁ with hk₁ | hk₁
      · exact ⟨ids, by rw [hids, hk₁], hsub.cons _⟩
      · exact ⟨id :: ids, by rw [hids, hk₁, List.append_assoc, List.singleton_append],
          hsub.cons_cons _⟩
    | blank b => exact Inquiry.Ends.found skip
    | literal text => exact Inquiry.Ends.found skip

/-- Sorting the enumerations of a dataset at the end moves none of them. -/
theorem asDeclared_enumIds (hg : g.AnswersFrom d) :
    asDeclared.Ends g (fun k => k.enumIds.Pairwise (· < ·)) fun _ => True := by
  refine (Inquiry.ends_subjects hg rdfType (.iri owlClass)).bind fun nodes hnodes => ?_
  refine (declareAll_enumIds empty nodes).mono (fun k hk => ?_) fun e he => he
  obtain ⟨ids, hids, hsub⟩ := hk
  have hascending : (ids.map Node.iri).Pairwise fun x y => Node.before x y = true := by
    rw [hnodes] at hsub
    exact (Text.pairwise_ascending Node.strictOrder_before _).sublist hsub
  have hall : k.enumIds = ids := hids
  rw [hall]
  refine (List.pairwise_map.1 hascending).imp fun {a b} hab => Text.before_iff.1 ?_
  simpa [Node.before, Node.rank, Node.text] using hab

end Kinds

/-! ## Classifications and kinds -/

def Enum.facts (e : Enum) : EnumFacts := ⟨e.id, e.values, e.comment⟩

theorem EnumFacts.facts_allNamed (es : List EnumFacts) :
    Naming.Gives (allNamed es) fun es' => es'.map Enum.facts = es := by
  induction es with
  | nil => exact Naming.gives_pure rfl
  | cons e es ih =>
    refine Naming.Gives.bind (Q := fun e' => e'.facts = e) ?_ fun e' he' => ?_
    · exact (Naming.gives_true _).bind fun _ _ => Naming.gives_pure rfl
    · refine ih.bind fun es' hes' => Naming.gives_pure ?_
      rw [List.map_cons, he', hes']

namespace Classification

def kinds (c : Classification) : Kinds := ⟨c.enums.map Enum.facts, c.classIds⟩

theorem kinds_ofKinds (k : Kinds) : Naming.Gives (ofKinds k) fun c => c.kinds = k :=
  (EnumFacts.facts_allNamed k.enums).bind fun enums henums => Naming.gives_pure <| by
    rw [kinds, henums]

theorem map_id_eq (c : Classification) : c.enums.map Enum.id = c.kinds.enumIds := by
  rw [kinds, Kinds.enumIds, List.map_map]
  rfl

theorem sorted_of_kinds {c : Classification} {k : Kinds} (hc : c.kinds = k)
    (hk : k.enumIds.Pairwise (· < ·)) : c.sorted = c := by
  have hids : (c.enums.map Enum.id).Pairwise (· < ·) := by
    rw [map_id_eq, hc]
    exact hk
  have henums : Text.sortStable enumBefore c.enums = c.enums :=
    Text.sortStable_eq_self_of_pairwise_lt Enum.id hids
  rw [sorted, henums]

/-- To classify the classes of a dataset is to tell their kinds apart and to name the
enumerations afterwards. -/
theorem run_ofGraph (hg : g.AnswersFrom d) (t : NameTable) :
    (ofGraph.run t).run g = (fun k => (ofKinds k).run t) <$> Kinds.ofGraph.run g := by
  rw [ofGraph_splits t, Kinds.ofGraph_eq, Inquiry.run_bind, Inquiry.run_bind]
  cases hrun : Kinds.asDeclared.run g with
  | error e => rfl
  | ok k =>
    have hk := (Kinds.asDeclared_enumIds hg).of_run_ok hrun
    have hsame : Text.sortStable Kinds.enumBefore k.enums = k.enums :=
      Text.sortStable_eq_self_of_pairwise_lt EnumFacts.id hk
    show Except.ok (((ofKinds k).run t).1.sorted, ((ofKinds k).run t).2) =
      .ok ((ofKinds { k with enums := Text.sortStable Kinds.enumBefore k.enums }).run t)
    rw [sorted_of_kinds (kinds_ofKinds k t) hk, hsame]
    rfl

theorem ofGraph_keeps (m : Metadata) (t : NameTable) :
    (ofGraph.run t).Keeps (Question.InFootprint m) E := by
  rw [ofGraph_splits t]
  refine Inquiry.Keeps.bind ?_ fun _ => Inquiry.keeps_pure _
  exact Inquiry.keeps_instances.bind fun nodes => Kinds.declareAll_keeps _ nodes

end Classification

/-! ## The partition -/

namespace Dataset

/-- A value is named by its label, or else by what its id has beyond the start that it shares
with the id of the class. -/
def NamesValue (d : Dataset) (classId : String) (v : EnumValue) : Prop :=
  (∃ label, d.Least (.iri v.id) rdfsLabel label ∧ v.name = label.text) ∨
    d.Lacks (.iri v.id) rdfsLabel ∧ Text.Beyond [classId] v.id v.name

/-- The declared classes of a dataset are parted into enumerations and structural classes. -/
structure PartedInto (d : Dataset) (c : Classification) : Prop where
  disjoint : ∀ id ∈ c.enumIds, id ∉ c.classIds
  declared : ∀ id, id ∈ c.enumIds ∨ id ∈ c.classIds ↔ d.Holds (.iri id) rdfType (.iri owlClass)
  mem_enumIds : ∀ id, id ∈ c.enumIds ↔ d.Holds (.iri id) rdfType (.iri owlClass) ∧
    ∃ i, d.Holds (.iri i) rdfType (.iri id) ∧ d.Holds (.iri i) rdfType (.iri owlNamedIndividual)
  enumIds_ascending : c.enumIds.Pairwise (· < ·)
  classIds_ascending : c.classIds.Pairwise (· < ·)
  map_id : c.enums.map Enum.id = c.enumIds
  values_ne_nil : ∀ e ∈ c.enums, e.values ≠ []
  values_ascending : ∀ e ∈ c.enums, (e.values.map EnumValue.id).Pairwise (· < ·)
  mem_values : ∀ e ∈ c.enums, ∀ i, i ∈ e.values.map EnumValue.id ↔
    d.Holds (.iri i) rdfType (.iri e.id) ∧ d.Holds (.iri i) rdfType (.iri owlNamedIndividual)
  names : ∀ e ∈ c.enums, ∀ v ∈ e.values, d.NamesValue e.id v

theorem DescribesValue.namesValue {classId : String} {v : EnumValue}
    (h : d.DescribesValue classId v) : d.NamesValue classId v := by
  obtain ⟨label, hlabel, hname⟩ := h.name
  cases label with
  | some label => exact .inl ⟨label, hlabel, hname⟩
  | none =>
    refine .inr ⟨hlabel, ?_⟩
    rw [hname]
    exact Text.beyond_removeCommonPrefix v.id [classId]

end Dataset

namespace Classification

theorem partedInto_ofKinds {k : Kinds} (hk : k.AreOf d) (henums : ∀ e ∈ k.enums, d.DescribesEnum e)
    (t : NameTable) : d.PartedInto ((ofKinds k).run t).1 := by
  have hkinds := kinds_ofKinds k t
  have henumIds : ((ofKinds k).run t).1.enumIds = Text.ascendingTexts k.enumIds.reverse := rfl
  have hclassIds : ((ofKinds k).run t).1.classIds = k.classIds := rfl
  generalize ((ofKinds k).run t).1 = c at *
  have hids : c.enums.map Enum.id = k.enumIds := by rw [map_id_eq, hkinds]
  have hmem (id : String) : id ∈ c.enumIds ↔ d.IsEnumeration id := by
    rw [henumIds, Text.mem_ascendingTexts, List.mem_reverse, hk.mem_enumIds]
  have hascending : c.enumIds.Pairwise (· < ·) := by
    rw [henumIds]
    exact Text.pairwise_ascendingTexts _
  have hdescribed : ∀ e ∈ c.enums, d.DescribesEnum e.facts := by
    intro e he
    refine henums e.facts ?_
    rw [← hkinds]
    exact List.mem_map_of_mem he
  refine ⟨fun id he hc => ?_, fun id => ?_, hmem, hascending, hclassIds ▸ hk.classes_ascending,
    ?_, fun e he => ?_, fun e he => (hdescribed e he).values_ascending,
    fun e he => (hdescribed e he).mem_ids, fun e he v hv => ?_⟩
  · rw [hclassIds, hk.mem_classIds] at hc
    exact hc.not_isEnumeration ((hmem id).1 he)
  · rw [hmem, hclassIds, hk.mem_classIds]
    exact Dataset.declares_iff.symm
  -- The ids were collected in two ways; both lists ascend and have the same members.
  · refine Text.eq_of_ascending Text.strictOrder_before ?_ ?_ fun id => ?_
    · rw [hids]
      exact hk.enums_ascending.imp Text.before_iff.2
    · exact hascending.imp Text.before_iff.2
    · rw [hids, hk.mem_enumIds, hmem]
  · have hid : e.id ∈ k.enumIds := by
      rw [← hids]
      exact List.mem_map_of_mem he
    obtain ⟨-, i, hi⟩ := (hk.mem_enumIds e.id).1 hid
    intro hnil
    have hvalue : i ∈ e.values.map EnumValue.id := ((hdescribed e he).mem_ids i).2 hi
    rw [hnil] at hvalue
    exact absurd hvalue List.not_mem_nil
  · exact ((hdescribed e he).values v hv).namesValue

/-- Wherever its questions are answered, a classification parts the declared classes into those
with a named individual and those without. -/
theorem exists_partedInto (hg : g.AnswersFrom d) (t : NameTable)
    (hanswers : ∀ q ∈ (ofGraph.run t).questions g, ∃ nodes, g.answer q = .ok nodes) :
    ∃ c t', (ofGraph.run t).run g = .ok (c, t') ∧ d.PartedInto c := by
  have hkeeps := ofGraph_keeps (E := fun _ => False) (.ofNamespace defaultMetadataNamespace) t
  obtain ⟨⟨c, t'⟩, hrun⟩ := hkeeps.exists_run_ok hanswers
  refine ⟨c, t', hrun, ?_⟩
  rw [run_ofGraph hg] at hrun
  cases hkinds : Kinds.ofGraph.run g with
  | error e =>
    rw [hkinds] at hrun
    cases hrun
  | ok k =>
    rw [hkinds] at hrun
    have hc : (ofKinds k).run t = (c, t') := Except.ok.inj hrun
    have hk : k.AreOf d := (Kinds.ofGraph_ends (E := fun _ => True) hg).of_run_ok hkinds
    have henums := (Kinds.ofGraph_describes (E := fun _ => True) hg).of_run_ok hkinds
    have hparted := partedInto_ofKinds hk henums t
    rw [hc] at hparted
    exact hparted

/-- Colours of which one has no IRI, tones that are no named individuals, and a class without
an IRI.  Named individuals are declared as a class themselves. -/
def paintShop : Dataset :=
  [⟨.iri "urn:Colour", rdfType, .resource (.iri owlClass), none⟩,
    ⟨.iri "urn:red", rdfType, .resource (.iri "urn:Colour"), none⟩,
    ⟨.iri "urn:red", rdfType, .resource (.iri owlNamedIndividual), none⟩,
    ⟨.iri "urn:red", rdfsLabel, .literal "scarlet" .plain, none⟩,
    ⟨.iri "urn:red", rdfsLabel, .literal "cherry" (.language "en"), none⟩,
    ⟨.iri "urn:Colour/blue", rdfType, .resource (.iri "urn:Colour"), none⟩,
    ⟨.iri "urn:Colour/blue", rdfType, .resource (.iri owlNamedIndividual), none⟩,
    ⟨.blank "mix", rdfType, .resource (.iri "urn:Colour"), none⟩,
    ⟨.blank "mix", rdfType, .resource (.iri "urn:Tone"), none⟩,
    ⟨.blank "mix", rdfType, .resource (.iri owlNamedIndividual), none⟩,
    ⟨.iri "urn:pale", rdfType, .resource (.iri "urn:Tone"), none⟩,
    ⟨.iri "urn:Tone", rdfType, .resource (.iri owlClass), none⟩,
    ⟨.blank "union", rdfType, .resource (.iri owlClass), none⟩,
    ⟨.iri owlNamedIndividual, rdfType, .resource (.iri owlClass), none⟩]

def paintShopClasses : Classification where
  enums :=
    [⟨owlNamedIndividual, "http_//www.w3.org/2002/07/owl#NamedIndividual",
        [⟨"urn:Colour/blue", "urn:Colour/blue", ""⟩, ⟨"urn:red", "cherry", ""⟩], ""⟩,
      ⟨"urn:Colour", "urn_Colour",
        [⟨"urn:Colour/blue", "/blue", ""⟩, ⟨"urn:red", "cherry", ""⟩], ""⟩]
  enumIds := [owlNamedIndividual, "urn:Colour"]
  classIds := ["urn:Tone"]

set_option maxRecDepth 10000 in
theorem partedInto_paintShop :
    (∃ t, (ofGraph.run (.ofContext fun t => t)).run paintShop.source = .ok (paintShopClasses, t)) ∧
      paintShop.PartedInto paintShopClasses := by
  have h : ∃ t, (ofGraph.run (.ofContext fun t => t)).run paintShop.source =
      .ok (paintShopClasses, t) := ⟨_, rfl⟩
  obtain ⟨c, t', hrun, hparted⟩ := exists_partedInto (Source.answersFrom_source paintShop)
    (.ofContext fun t => t) fun q _ => ⟨_, rfl⟩
  obtain ⟨t, ht⟩ := h
  have hsame : (c, t') = (paintShopClasses, t) := Except.ok.inj (hrun.symm.trans ht)
  rw [(Prod.mk.inj hsame).1] at hparted
  exact ⟨⟨t, ht⟩, hparted⟩

end Classification
end OntologyModel

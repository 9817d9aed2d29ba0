/-
What is read of structural classes and their property shapes is true, and so is the
error of a reading that fails.

One lemma for each inquiry, in the order in which they call each other.
-/
import OntologyModel.Proofs.Conditions
import OntologyModel.Proofs.Kinds

namespace OntologyModel

open Vocabulary

variable {g : Source} {d : Dataset} {k : Kinds} {m : Metadata}

namespace Shape

theorem refers_of_reference? (hk : k.AreOf d) {id : String} {r : Range}
    (h : reference? k id = some r) : d.Refers id r := by
  rw [reference?] at h
  split at h
  · rename_i he
    cases h
    exact ⟨rfl, hk.isEnum_iff.1 he⟩
  · split at h
    · rename_i hc
      cases h
      exact ⟨rfl, hk.isClass_iff.1 hc⟩
    · exact absurd h (by simp)

theorem not_declares_of_reference? (hk : k.AreOf d) {id : String} (h : reference? k id = none) :
    ¬d.IsEnumeration id ∧ ¬d.IsStructural id := by
  rw [reference?] at h
  split at h
  · exact absurd h (by simp)
  · rename_i he
    split at h
    · exact absurd h (by simp)
    · rename_i hc
      exact ⟨mt hk.isEnum_iff.2 he, mt hk.isClass_iff.2 hc⟩

variable {classId path predicate : String} {shape : Node}

theorem range_ends (hg : g.AnswersFrom d) (hk : k.AreOf d) (hc : d.IsStructural classId)
    (hs : d.HasShape classId shape path) :
    (range k classId shape path).Ends g (d.GivesRange shape path) (d.Violates m) := by
  refine (Inquiry.ends_value hg shape shClass).bind fun target htarget => ?_
  cases target with
  | some target =>
    dsimp only
    cases hr : reference? k target.text with
    | some r => exact Inquiry.ends_pure (.restricted htarget (refers_of_reference? hk hr))
    | none =>
      have hno := not_declares_of_reference? hk hr
      exact Inquiry.ends_failure ⟨hc, shape, hs, target, htarget, rfl, hno⟩
  | none =>
    refine (Inquiry.ends_value hg shape shDatatype).bind fun datatype hdatatype => ?_
    cases datatype with
    | some datatype =>
      refine (Inquiry.ends_value hg shape shPattern).bind fun pattern hpattern => ?_
      exact Inquiry.ends_pure (.typed htarget hdatatype hpattern)
    | none =>
      refine (Inquiry.ends_value hg (.iri path) rdfsRange).bind fun declared hdeclared => ?_
      cases declared with
      | some v =>
        refine Inquiry.ends_pure ?_
        cases hr : reference? k v.text with
        | some r => exact .declared htarget hdatatype hdeclared (refers_of_reference? hk hr)
        | none =>
          have hno := not_declares_of_reference? hk hr
          refine .foreign htarget hdatatype hdeclared fun h => ?_
          exact (Dataset.declares_iff.1 h).elim hno.1 hno.2
      | none => exact Inquiry.ends_failure ⟨hc, shape, hs, htarget, hdatatype, hdeclared⟩

theorem count_ends (hg : g.AnswersFrom d) (hc : d.IsStructural classId)
    (hs : d.HasShape classId shape path) (hp : predicate = shMinCount ∨ predicate = shMaxCount) :
    (count classId shape path predicate).Ends g (d.IsCount shape predicate) (d.Violates m) := by
  refine (Inquiry.ends_value hg shape predicate).bind fun v hv => ?_
  cases v with
  | none => exact Inquiry.ends_pure hv
  | some v =>
    dsimp only
    cases hn : Count.ofText? v.text with
    | some n => exact Inquiry.ends_pure ⟨v, hv, hn⟩
    | none => exact Inquiry.ends_failure ⟨hc, hp, shape, hs, v, hv, rfl, hn⟩

theorem property_ends (hg : g.AnswersFrom d) (hk : k.AreOf d) (hc : d.IsStructural classId)
    (hs : d.Holds (.iri classId) shProperty shape) :
    (property k classId shape).Ends g (d.Describes shape) (d.Violates m) := by
  refine (Inquiry.ends_value hg shape shPath).bind fun path hpath => ?_
  -- The least object is an IRI as soon as any object is one.
  have missing (hno : ∀ t, path ≠ some (.iri t)) : ∀ t, ¬d.Holds shape shPath (.iri t) := by
    intro t ht
    cases path with
    | none => exact hpath _ ht
    | some v =>
      obtain ⟨t', rfl⟩ := Dataset.Least.exists_iri hpath ht
      exact hno t' rfl
  match path, hpath, missing with
  | some (.iri path), hpath, _ =>
    have hshape : d.HasShape classId shape path := ⟨hs, hpath⟩
    refine (Inquiry.ends_value hg shape shName).bind fun givenName hname => ?_
    refine (range_ends hg hk hc hshape).bind fun range hrange => Inquiry.Ends.found ?_
    refine (Inquiry.ends_textOrEmpty hg (.iri path) rdfsComment).bind fun comment hcomment => ?_
    refine (count_ends hg hc hshape (.inl rfl)).bind fun minCount hmin => ?_
    refine (count_ends hg hc hshape (.inr rfl)).bind fun maxCount hmax => Inquiry.ends_pure ?_
    exact ⟨hpath, ⟨givenName, hname, rfl⟩, hcomment, hmin, hmax, hrange⟩
  | none, _, missing => exact Inquiry.ends_failure ⟨hc, shape, hs, rfl, missing nofun⟩
  | some (.blank id), _, missing => exact Inquiry.ends_failure ⟨hc, shape, hs, rfl, missing nofun⟩
  | some (.literal t), _, missing =>
    exact Inquiry.ends_failure ⟨hc, shape, hs, rfl, missing nofun⟩

theorem propertiesOf_ends (hg : g.AnswersFrom d) (hk : k.AreOf d) (hc : d.IsStructural classId)
    {shapes : List Node} (hs : ∀ shape ∈ shapes, d.Holds (.iri classId) shProperty shape) :
    (propertiesOf k classId shapes).Ends g (List.Forall₂ d.Describes shapes) (d.Violates m) := by
  induction shapes with
  | nil => exact Inquiry.ends_pure .nil
  | cons shape rest ih =>
    obtain ⟨hshape, hrest⟩ := List.forall_mem_cons.1 hs
    refine (property_ends hg hk hc hshape).bind fun f hf => ?_
    exact (ih hrest).bind fun fs hfs => Inquiry.ends_pure (.cons hf hfs)

theorem properties_ends (hg : g.AnswersFrom d) (hk : k.AreOf d) (hc : d.IsStructural classId) :
    (properties k classId).Ends g
      (List.Forall₂ d.Describes (d.objects (.iri classId) shProperty)) (d.Violates m) := by
  refine (Inquiry.ends_objects hg _ _).bind fun shapes hshapes => ?_
  rw [hshapes]
  exact propertiesOf_ends hg hk hc fun shape hs => Dataset.mem_objects.1 hs

end Shape

namespace ClassFacts

variable {classId : String}

theorem readRefable_ends (hg : g.AnswersFrom d) (hc : d.IsStructural classId) :
    (readRefable m classId).Ends g (d.IsRefable m classId) (d.Violates m) := by
  refine (Inquiry.ends_value hg (.iri classId) m.referenceable).bind fun v hv => ?_
  cases v with
  | none => exact Inquiry.ends_pure (.inl ⟨hv, rfl⟩)
  | some v =>
    dsimp only
    cases hr : Refable.ofWord? v.text with
    | some r => exact Inquiry.ends_pure (.inr ⟨v, hv, Refable.word_of_ofWord? hr⟩)
    | none =>
      refine Inquiry.ends_failure ⟨hc, v, hv, rfl, fun r hword => ?_⟩
      rw [← hword, Refable.ofWord?_word] at hr
      exact absurd hr (by simp)

theorem round_self (hc : d.IsStructural classId)
    (hself : d.Holds (.iri classId) rdfsSubClassOf (.iri classId)) :
    Round d.Extends [classId, classId] where
  two_le := Nat.le_refl 2
  closed := rfl
  nodup := List.pairwise_singleton _ classId
  linked := List.isChain_pair.2 ⟨hc, hc, hself⟩

theorem parentsAmong_ends (hk : k.AreOf d) (hc : d.IsStructural classId) {nodes : List Node}
    (hn : ∀ node ∈ nodes, d.Holds (.iri classId) rdfsSubClassOf node) :
    (parentsAmong k classId nodes).Ends g
      (fun ps => (∀ x, x ∈ ps ↔ .iri x ∈ nodes ∧ d.IsStructural x) ∧ classId ∉ ps)
      (d.Violates m) := by
  induction nodes with
  | nil => exact Inquiry.ends_pure ⟨fun x => by simp, List.not_mem_nil⟩
  | cons node rest ih =>
    obtain ⟨hnode, hrest⟩ := List.forall_mem_cons.1 hn
    have skip (hskip : ∀ x, node = .iri x → ¬d.IsStructural x) :
        (parentsAmong k classId rest).Ends g
          (fun ps => (∀ x, x ∈ ps ↔ .iri x ∈ node :: rest ∧ d.IsStructural x) ∧ classId ∉ ps)
          (d.Violates m) := by
      refine (ih hrest).mono (fun ps hps => ⟨fun x => ?_, hps.2⟩) fun e he => he
      rw [hps.1]
      exact Dataset.iri_mem_cons_of_skip _ hskip rest x
    cases node with
    | iri parent =>
      rw [parentsAmong]
      by_cases hp : k.isClass parent = true
      · rw [if_pos hp]
        have hstr : d.IsStructural parent := hk.isClass_iff.1 hp
        by_cases hself : parent = classId
        · rw [if_pos hself]
          exact Inquiry.ends_failure (round_self hc (hself ▸ hnode))
        · rw [if_neg hself]
          refine (ih hrest).bind fun ps hps => Inquiry.ends_pure ⟨fun x => ?_, fun hmem => ?_⟩
          · rw [List.mem_cons, hps.1]
            exact Dataset.iri_mem_cons_of_keep d.IsStructural hstr rest x
          · rcases List.mem_cons.1 hmem with h | h
            · exact hself h.symm
            · exact hps.2 h
      · rw [if_neg hp]
        refine Inquiry.Ends.found (skip fun x hx hstr => hp (hk.isClass_iff.2 ?_))
        rwa [Node.iri.inj hx]
    | blank b => exact skip fun x hx => nomatch hx
    | literal t => exact skip fun x hx => nomatch hx

theorem readParents_ends (hg : g.AnswersFrom d) (hk : k.AreOf d) (hc : d.IsStructural classId) :
    (readParents k classId).Ends g
      (fun ps => ps.Pairwise (· < ·) ∧
        (∀ x, x ∈ ps ↔ d.IsStructural x ∧ d.Holds (.iri classId) rdfsSubClassOf (.iri x)) ∧
        classId ∉ ps)
      (d.Violates m) := by
  refine (Inquiry.ends_objects hg _ _).bind fun nodes hnodes => ?_
  rw [hnodes]
  refine (parentsAmong_ends hk hc fun node hn => Dataset.mem_objects.1 hn).bind fun ps hps => ?_
  refine Inquiry.ends_pure ⟨Text.pairwise_ascendingTexts ps, fun x => ?_, ?_⟩
  · rw [Text.mem_ascendingTexts, hps.1, Dataset.mem_objects, and_comm]
  · rw [Text.mem_ascendingTexts]
    exact hps.2

theorem read_ends (hg : g.AnswersFrom d) (hk : k.AreOf d) (hc : d.IsStructural classId) :
    (read k m classId).Ends g (fun c => c.id = classId ∧ d.DescribesClass m c)
      (d.Violates m) := by
  refine (readRefable_ends hg hc).bind fun refable hrefable => ?_
  refine (Inquiry.ends_value hg (.iri classId) m.idPropertyName).bind fun idProperty hid => ?_
  refine (readParents_ends hg hk hc).bind fun parentIds hparents => ?_
  refine (Shape.properties_ends hg hk hc).bind fun properties hproperties => ?_
  refine (Inquiry.ends_textOrEmpty hg (.iri classId) rdfsComment).bind fun comment hcomment => ?_
  exact Inquiry.ends_pure ⟨rfl, hrefable, ⟨idProperty, hid, rfl⟩, hparents.1, hparents.2.1,
    hparents.2.2, hproperties, hcomment⟩

theorem readAll_ends (hg : g.AnswersFrom d) (hk : k.AreOf d) {ids : List String}
    (hids : ∀ id ∈ ids, d.IsStructural id) :
    (readAll k m ids).Ends g
      (fun cs => cs.map ClassFacts.id = ids ∧ ∀ c ∈ cs, d.DescribesClass m c)
      (d.Violates m) := by
  induction ids with
  | nil => exact Inquiry.ends_pure ⟨rfl, fun c hc => absurd hc List.not_mem_nil⟩
  | cons id rest ih =>
    obtain ⟨hid, hrest⟩ := List.forall_mem_cons.1 hids
    refine (read_ends hg hk hid).bind fun c hc => ?_
    refine (ih hrest).bind fun cs hcs => Inquiry.ends_pure ⟨?_, ?_⟩
    · rw [List.map_cons, hc.1, hcs.1]
    · exact List.forall_mem_cons.2 ⟨hc.2, hcs.2⟩

end ClassFacts

end OntologyModel

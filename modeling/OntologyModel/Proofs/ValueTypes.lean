/-
Which of three sources decides on the value type of a property.

The class restriction of a shape comes first, its datatype second, and the range that is
declared for the path last.  A source that speaks decides alone: what a dataset says further
down may be edited in any way.  That holds also of a restriction that names nothing known,
which is an error and no reason to look further, and of the pattern, which belongs to the
datatype.
-/
import OntologyModel.Proofs.Resemblance
import OntologyModel.Proofs.Uniqueness

namespace OntologyModel

open Vocabulary

variable {d d' : Dataset} {s shape : Node} {p path classId : String} {k : Kinds} {ps : List String}

/-! ## Edits -/

namespace Dataset

/-- Two datasets have the same triples but for those on some predicates. -/
def SameBut (ps : List String) (d d' : Dataset) : Prop :=
  ∀ s o, ∀ p ∉ ps, d.Holds s p o ↔ d'.Holds s p o

theorem SameBut.lacks (h : SameBut ps d d') (hp : p ∉ ps) (hs : d.Lacks s p) : d'.Lacks s p :=
  hs.congr fun o => h s o p hp

theorem SameBut.least (h : SameBut ps d d') (hp : p ∉ ps) {v : Node} (hv : d.Least s p v) :
    d'.Least s p v :=
  hv.congr fun o => h s o p hp

theorem SameBut.isValue (h : SameBut ps d d') (hp : p ∉ ps) {v : Option Node}
    (hv : d.IsValue s p v) : d'.IsValue s p v :=
  hv.congr fun o => h s o p hp

theorem lacks_of_objects (h : d.objects s p = []) : d.Lacks s p := by
  intro o ho
  rw [← mem_objects, h] at ho
  exact absurd ho List.not_mem_nil

theorem exists_least {o : Node} (h : d.Holds s p o) : ∃ v, d.Least s p v := by
  have hvalue := d.isValue_head? s p
  cases hhead : (d.objects s p).head? with
  | none =>
    rw [hhead] at hvalue
    exact absurd h (hvalue o)
  | some v =>
    rw [hhead] at hvalue
    exact ⟨v, hvalue⟩

end Dataset

namespace Inquiry

variable {α : Type}

theorem run_value_bind {v : Option Node} (hv : d.IsValue s p v) (next : Option Node → Inquiry α) :
    (value s p >>= next).run d.source = (next v).run d.source := by
  rw [← (d.isValue_head? s p).unique hv]
  rfl

theorem run_value_of_lacks (h : d.Lacks s p) (next : Option Node → Inquiry α) :
    (value s p >>= next).run d.source = (next none).run d.source :=
  run_value_bind (v := none) h next

theorem run_value_of_least {v : Node} (h : d.Least s p v) (next : Option Node → Inquiry α) :
    (value s p >>= next).run d.source = (next (some v)).run d.source :=
  run_value_bind (v := some v) h next

end Inquiry

/-! ## References -/

/-- The enumeration or else the structural class that a text names, and something else if it
names neither. -/
def Kinds.refer (k : Kinds) (id : String) (otherwise : Except ModelError Range) :
    Except ModelError Range :=
  if id ∈ k.enumIds then .ok (.enumeration id)
  else if id ∈ k.classIds then .ok (.structural id)
  else otherwise

theorem Kinds.refer_eq (k : Kinds) (id : String) (otherwise : Except ModelError Range) :
    k.refer id otherwise =
      match Shape.reference? k id with
      | some r => .ok r
      | none => otherwise := by
  simp only [refer, Shape.reference?, isEnum, isClass, List.contains_iff_mem]
  by_cases he : id ∈ k.enumIds
  · rw [if_pos he, if_pos he]
  · rw [if_neg he, if_neg he]
    by_cases hc : id ∈ k.classIds
    · rw [if_pos hc, if_pos hc]
    · rw [if_neg hc, if_neg hc]

theorem Kinds.refer_ok_ne_error (k : Kinds) (id : String) (r : Range) (e : ModelError) :
    k.refer id (.ok r) ≠ .error e := by
  rw [refer_eq]
  cases Shape.reference? k id with
  | some r' => nofun
  | none => nofun

namespace Shape

def rangeIn (k : Kinds) (classId : String) (shape : Node) (path : String) (d : Dataset) :
    Except ModelError Range :=
  (range k classId shape path).run d.source

theorem rangeIn_of_restricted {target : Node} (htarget : d.Least shape shClass target) :
    rangeIn k classId shape path d =
      k.refer target.text (.error (.unknownRangeRestriction classId path target.text)) := by
  rw [rangeIn, range, Inquiry.run_value_of_least htarget]
  dsimp only
  rw [Kinds.refer_eq]
  cases reference? k target.text with
  | some r => rfl
  | none => rfl

theorem rangeIn_of_typed {datatype : Node} {pattern : Option Node}
    (hclass : d.Lacks shape shClass) (hdatatype : d.Least shape shDatatype datatype)
    (hpattern : d.IsValue shape shPattern pattern) :
    rangeIn k classId shape path d = .ok (.datatype datatype.text (pattern.map Node.text)) := by
  rw [rangeIn, range, Inquiry.run_value_of_lacks hclass]
  dsimp only
  rw [Inquiry.run_value_of_least hdatatype]
  dsimp only
  rw [Inquiry.run_value_bind hpattern]
  rfl

theorem rangeIn_of_declared (hclass : d.Lacks shape shClass) (hdatatype : d.Lacks shape shDatatype)
    {v : Node} (hv : d.Least (.iri path) rdfsRange v) :
    rangeIn k classId shape path d = k.refer v.text (.ok (.datatype v.text none)) := by
  rw [rangeIn, range, Inquiry.run_value_of_lacks hclass]
  dsimp only
  rw [Inquiry.run_value_of_lacks hdatatype]
  dsimp only
  rw [Inquiry.run_value_of_least hv, Kinds.refer_eq]
  dsimp only
  cases reference? k v.text with
  | some r => rfl
  | none => rfl

theorem rangeIn_of_undeclared (hclass : d.Lacks shape shClass)
    (hdatatype : d.Lacks shape shDatatype) (hlacks : d.Lacks (.iri path) rdfsRange) :
    rangeIn k classId shape path d = .error (.missingPropertyRange classId path) := by
  rw [rangeIn, range, Inquiry.run_value_of_lacks hclass]
  dsimp only
  rw [Inquiry.run_value_of_lacks hdatatype]
  dsimp only
  rw [Inquiry.run_value_of_lacks hlacks]
  rfl

end Shape

/-! ## The three sources -/

namespace Shape

open Dataset (SameBut exists_least lacks_of_objects mem_objects)

/-- The least class restriction decides, known or not; without one the least datatype with the
least pattern; without either the least range that is declared for the path.  No source is
looked at below the one that decides. -/
theorem rangeIn_by_precedence (k : Kinds) (classId path : String) (shape : Node) (d : Dataset) :
    ((∃ o, d.Holds shape shClass o) →
      (∃ target, d.Least shape shClass target ∧
        rangeIn k classId shape path d =
          k.refer target.text (.error (.unknownRangeRestriction classId path target.text))) ∧
      ∀ d', SameBut [shDatatype, shPattern, rdfsRange] d d' →
        rangeIn k classId shape path d' = rangeIn k classId shape path d) ∧
    (d.Lacks shape shClass → (∃ o, d.Holds shape shDatatype o) →
      (∃ datatype pattern, d.Least shape shDatatype datatype ∧ d.IsValue shape shPattern pattern ∧
        rangeIn k classId shape path d = .ok (.datatype datatype.text (pattern.map Node.text))) ∧
      ∀ d', SameBut [rdfsRange] d d' →
        rangeIn k classId shape path d' = rangeIn k classId shape path d) ∧
    (d.Lacks shape shClass → d.Lacks shape shDatatype →
      ((∃ o, d.Holds (.iri path) rdfsRange o) →
        ∃ v, d.Least (.iri path) rdfsRange v ∧
          rangeIn k classId shape path d = k.refer v.text (.ok (.datatype v.text none))) ∧
      (rangeIn k classId shape path d = .error (.missingPropertyRange classId path) ↔
        d.Lacks (.iri path) rdfsRange) ∧
      ∀ d', SameBut [shPattern] d d' →
        rangeIn k classId shape path d' = rangeIn k classId shape path d) := by
  refine ⟨?_, ?_, ?_⟩
  -- Each edit leaves the triples alone that were looked at, so that both runs are one.
  · intro hclass
    obtain ⟨o, ho⟩ := hclass
    obtain ⟨target, htarget⟩ := exists_least ho
    refine ⟨⟨target, htarget, rangeIn_of_restricted htarget⟩, fun d' hd' => ?_⟩
    have htarget' : d'.Least shape shClass target := hd'.least (by decide) htarget
    rw [rangeIn_of_restricted htarget, rangeIn_of_restricted htarget']
  · intro hclass hdatatype
    obtain ⟨o, ho⟩ := hdatatype
    obtain ⟨datatype, hdatatype⟩ := exists_least ho
    have hpattern := d.isValue_head? shape shPattern
    refine ⟨⟨datatype, _, hdatatype, hpattern, rangeIn_of_typed hclass hdatatype hpattern⟩,
      fun d' hd' => ?_⟩
    have hclass' : d'.Lacks shape shClass := hd'.lacks (by decide) hclass
    have hdatatype' : d'.Least shape shDatatype datatype := hd'.least (by decide) hdatatype
    have hpattern' := hd'.isValue (by decide) hpattern
    rw [rangeIn_of_typed hclass hdatatype hpattern, rangeIn_of_typed hclass' hdatatype' hpattern']
  · intro hclass hdatatype
    refine ⟨?_, ⟨?_, ?_⟩, fun d' hd' => ?_⟩
    · intro hrange
      obtain ⟨o, ho⟩ := hrange
      obtain ⟨v, hv⟩ := exists_least ho
      exact ⟨v, hv, rangeIn_of_declared hclass hdatatype hv⟩
    · intro hmissing o ho
      obtain ⟨v, hv⟩ := exists_least ho
      rw [rangeIn_of_declared hclass hdatatype hv] at hmissing
      exact k.refer_ok_ne_error _ _ _ hmissing
    · exact rangeIn_of_undeclared hclass hdatatype
    · have hclass' : d'.Lacks shape shClass := hd'.lacks (by decide) hclass
      have hdatatype' : d'.Lacks shape shDatatype := hd'.lacks (by decide) hdatatype
      by_cases hrange : ∃ o, d.Holds (.iri path) rdfsRange o
      · obtain ⟨o, ho⟩ := hrange
        obtain ⟨v, hv⟩ := exists_least ho
        have hv' : d'.Least (.iri path) rdfsRange v := hd'.least (by decide) hv
        rw [rangeIn_of_declared hclass hdatatype hv, rangeIn_of_declared hclass' hdatatype' hv']
      · have hlacks : d.Lacks (.iri path) rdfsRange := not_exists.1 hrange
        have hlacks' : d'.Lacks (.iri path) rdfsRange := hd'.lacks (by decide) hlacks
        rw [rangeIn_of_undeclared hclass hdatatype hlacks,
          rangeIn_of_undeclared hclass' hdatatype' hlacks']

/-- Shapes for a path whose values are colours: one is restricted to a class that nobody knows,
one gives the colours as a datatype, and one has no more than a pattern. -/
def respray : Dataset :=
  [⟨.iri "urn:paint", rdfsRange, .resource (.iri "urn:Colour"), none⟩,
    ⟨.blank "ghost", shClass, .resource (.iri "urn:Ghost"), none⟩,
    ⟨.blank "ghost", shDatatype, .resource (.iri "urn:text"), none⟩,
    ⟨.blank "typed", shDatatype, .resource (.iri "urn:Colour"), none⟩,
    ⟨.blank "typed", shPattern, .literal "r.*" .plain, none⟩,
    ⟨.blank "typed", shPattern, .literal "b.*" .plain, none⟩,
    ⟨.blank "bare", shPattern, .literal "r.*" .plain, none⟩]

def resprayKinds : Kinds := ⟨[⟨"urn:Colour", [], ""⟩], ["urn:Car"]⟩

theorem rangeIn_respray :
    (∀ d', SameBut [shDatatype, shPattern, rdfsRange] respray d' →
      rangeIn resprayKinds "urn:Car" (.blank "ghost") "urn:paint" d' =
        .error (.unknownRangeRestriction "urn:Car" "urn:paint" "urn:Ghost")) ∧
    (∀ d', SameBut [rdfsRange] respray d' →
      rangeIn resprayKinds "urn:Car" (.blank "typed") "urn:paint" d' =
        .ok (.datatype "urn:Colour" (some "b.*"))) ∧
    (∀ d', SameBut [shPattern] respray d' →
      rangeIn resprayKinds "urn:Car" (.blank "bare") "urn:paint" d' =
        .ok (.enumeration "urn:Colour")) := by
  have hghost : respray.Holds (.blank "ghost") shClass (.iri "urn:Ghost") :=
    mem_objects.1 (by decide)
  have htyped : respray.Holds (.blank "typed") shDatatype (.iri "urn:Colour") :=
    mem_objects.1 (by decide)
  have hclass : respray.Lacks (.blank "typed") shClass := lacks_of_objects rfl
  have hclass' : respray.Lacks (.blank "bare") shClass := lacks_of_objects rfl
  have hdatatype : respray.Lacks (.blank "bare") shDatatype := lacks_of_objects rfl
  obtain ⟨hrestricted, -, -⟩ :=
    rangeIn_by_precedence resprayKinds "urn:Car" "urn:paint" (.blank "ghost") respray
  obtain ⟨-, hown, -⟩ :=
    rangeIn_by_precedence resprayKinds "urn:Car" "urn:paint" (.blank "typed") respray
  obtain ⟨-, -, hpath⟩ :=
    rangeIn_by_precedence resprayKinds "urn:Car" "urn:paint" (.blank "bare") respray
  refine ⟨fun d' hd' => ?_, fun d' hd' => ?_, fun d' hd' => ?_⟩
  · exact ((hrestricted ⟨_, hghost⟩).2 d' hd').trans rfl
  · exact ((hown hclass ⟨_, htyped⟩).2 d' hd').trans rfl
  · exact ((hpath hclass' hdatatype).2.2 d' hd').trans rfl

end Shape
end OntologyModel

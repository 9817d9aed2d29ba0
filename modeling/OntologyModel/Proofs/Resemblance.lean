/-
Datasets that say the same of every class.

Two nodes are alike if they have the same values, and two datasets resemble each other
if IRIs are alike in both, are linked to the same IRIs, and have shapes that are alike.
Which nodes stand for the shapes is left open.  Whatever is true of the values and the
classes of one dataset is then true of the other.
-/
import OntologyModel.Proofs.Enumerations
import OntologyModel.Proofs.Footprint

namespace OntologyModel

open Vocabulary

namespace Dataset

variable {d d' : Dataset} {m : Metadata} {s s' : Node} {p path id classId : String}

/-! ## Values -/

theorem Lacks.congr (hl : d.Lacks s p) (h : ∀ o, d.Holds s p o ↔ d'.Holds s' p o) :
    d'.Lacks s' p := fun o ho => hl o ((h o).2 ho)

theorem Least.congr {v : Node} (hv : d.Least s p v) (h : ∀ o, d.Holds s p o ↔ d'.Holds s' p o) :
    d'.Least s' p v where
  holds := (h v).1 hv.holds
  least o ho := hv.least o ((h o).2 ho)

theorem IsValue.congr {v : Option Node} (hv : d.IsValue s p v)
    (h : ∀ o, d.Holds s p o ↔ d'.Holds s' p o) : d'.IsValue s' p v := by
  cases v with
  | none => exact Lacks.congr hv h
  | some v => exact Least.congr hv h

theorem IsCount.congr {n : Option UInt64} (hn : d.IsCount s p n)
    (h : ∀ o, d.Holds s p o ↔ d'.Holds s' p o) : d'.IsCount s' p n := by
  cases n with
  | none => exact Lacks.congr hn h
  | some n =>
    obtain ⟨v, hv, hn⟩ := hn
    exact ⟨v, hv.congr h, hn⟩

/-! ## Nodes that are alike -/

/-- Two nodes have the same objects through the predicates that are read for their
text. -/
def Alike (m : Metadata) (d : Dataset) (s : Node) (d' : Dataset) (s' : Node) : Prop :=
  ∀ p ∈ values m, ∀ o, d.Holds s p o ↔ d'.Holds s' p o

theorem Alike.symm (h : Alike m d s d' s') : Alike m d' s' d s :=
  fun p hp o => (h p hp o).symm

/-- Two datasets differ at most in the nodes that stand for property shapes. -/
structure Resembles (m : Metadata) (d d' : Dataset) : Prop where
  links : ∀ id p t, d.Holds (.iri id) p (.iri t) ↔ d'.Holds (.iri id) p (.iri t)
  alike : ∀ id, Alike m d (.iri id) d' (.iri id)
  shapes : ∀ id s, d.Holds (.iri id) shProperty s →
    ∃ s', d'.Holds (.iri id) shProperty s' ∧ Alike m d s d' s'
  shapes_back : ∀ id s', d'.Holds (.iri id) shProperty s' →
    ∃ s, d.Holds (.iri id) shProperty s ∧ Alike m d s d' s'

theorem Resembles.symm (h : Resembles m d d') : Resembles m d' d where
  links id p t := (h.links id p t).symm
  alike id := (h.alike id).symm
  shapes id s' hs' := by
    obtain ⟨s, hs, halike⟩ := h.shapes_back id s' hs'
    exact ⟨s, hs, halike.symm⟩
  shapes_back id s hs := by
    obtain ⟨s', hs', halike⟩ := h.shapes id s hs
    exact ⟨s', hs', halike.symm⟩

/-! ## Classes -/

variable (h : Resembles m d d')

include h

theorem Resembles.hasIndividual_iff (i : String) :
    d.HasIndividual id i ↔ d'.HasIndividual id i :=
  and_congr (h.links i rdfType id) (h.links i rdfType owlNamedIndividual)

theorem Resembles.hasIndividuals_iff : d.HasIndividuals id ↔ d'.HasIndividuals id :=
  exists_congr h.hasIndividual_iff

theorem Resembles.isEnumeration_iff : d.IsEnumeration id ↔ d'.IsEnumeration id :=
  and_congr (h.links id rdfType owlClass) h.hasIndividuals_iff

theorem Resembles.isStructural_iff : d.IsStructural id ↔ d'.IsStructural id :=
  and_congr (h.links id rdfType owlClass) (not_congr h.hasIndividuals_iff)

theorem Resembles.extends_iff {a b : String} : d.Extends a b ↔ d'.Extends a b :=
  and_congr h.isStructural_iff (and_congr h.isStructural_iff (h.links a rdfsSubClassOf b))

theorem Resembles.refers_iff {r : Range} : d.Refers id r ↔ d'.Refers id r := by
  cases r with
  | enumeration e => exact and_congr_right fun _ => h.isEnumeration_iff
  | structural c => exact and_congr_right fun _ => h.isStructural_iff
  | datatype iri pattern => exact Iff.rfl

/-! ## Descriptions -/

theorem GivesRange.congr {r : Range} (hr : d.GivesRange s path r) (hs : Alike m d s d' s') :
    d'.GivesRange s' path r := by
  have hclass := hs shClass (by simp [values])
  have hdatatype := hs shDatatype (by simp [values])
  have hrange := h.alike path rdfsRange (by simp [values])
  cases hr with
  | restricted ht href => exact .restricted (ht.congr hclass) (h.refers_iff.1 href)
  | typed hc hd hp =>
    exact .typed (hc.congr hclass) (hd.congr hdatatype) (hp.congr (hs shPattern (by simp [values])))
  | declared hc hd hv href =>
    exact .declared (hc.congr hclass) (hd.congr hdatatype) (hv.congr hrange) (h.refers_iff.1 href)
  | foreign hc hd hv hno =>
    refine .foreign (hc.congr hclass) (hd.congr hdatatype) (hv.congr hrange) fun hdecl => ?_
    exact hno ((h.links _ rdfType owlClass).2 hdecl)

theorem Describes.congr {f : PropertyFacts} (hf : d.Describes s f) (hs : Alike m d s d' s') :
    d'.Describes s' f where
  path := hf.path.congr (hs shPath (by simp [values]))
  givenName := by
    obtain ⟨v, hv, hname⟩ := hf.givenName
    exact ⟨v, hv.congr (hs shName (by simp [values])), hname⟩
  comment := by
    obtain ⟨v, hv, hcomment⟩ := hf.comment
    exact ⟨v, hv.congr (h.alike f.path rdfsComment (by simp [values])), hcomment⟩
  minCount := hf.minCount.congr (hs shMinCount (by simp [values]))
  maxCount := hf.maxCount.congr (hs shMaxCount (by simp [values]))
  range := hf.range.congr h hs

theorem DescribesValue.congr {v : EnumValue} (hv : d.DescribesValue classId v) :
    d'.DescribesValue classId v where
  individual := (h.hasIndividual_iff v.id).1 hv.individual
  name := by
    obtain ⟨label, hlabel, hname⟩ := hv.name
    exact ⟨label, hlabel.congr (h.alike v.id rdfsLabel (by simp [values])), hname⟩
  comment := by
    obtain ⟨c, hc, hcomment⟩ := hv.comment
    exact ⟨c, hc.congr (h.alike v.id rdfsComment (by simp [values])), hcomment⟩

theorem DescribesEnum.congr {e : EnumFacts} (he : d.DescribesEnum e) : d'.DescribesEnum e where
  values_ascending := he.values_ascending
  mem_ids i := (he.mem_ids i).trans (h.hasIndividual_iff i)
  values v hv := (he.values v hv).congr h
  comment := by
    obtain ⟨c, hc, hcomment⟩ := he.comment
    exact ⟨c, hc.congr (h.alike e.id rdfsComment (by simp [Vocabulary.values])), hcomment⟩

theorem IsRefable.congr {r : Refable} (hr : d.IsRefable m id r) : d'.IsRefable m id r := by
  have hrefable := h.alike id m.referenceable (by simp [values])
  rcases hr with ⟨hlacks, hopt⟩ | ⟨v, hv, hword⟩
  · exact .inl ⟨hlacks.congr hrefable, hopt⟩
  · exact .inr ⟨v, hv.congr hrefable, hword⟩

/-! ## Conditions -/

theorem HasRange.congr (hr : d.HasRange s) (hs : Alike m d s d' s') : d'.HasRange s' := by
  have hclass := hs shClass (by simp [values])
  have hdatatype := hs shDatatype (by simp [values])
  rcases hr with ⟨v, hv, hkind⟩ | ⟨hlacks, v, hv⟩ | ⟨hlacks, hlacks', path, hpath, v, hv⟩
  · exact .inl ⟨v, hv.congr hclass, hkind.imp h.isEnumeration_iff.1 h.isStructural_iff.1⟩
  · exact .inr (.inl ⟨hlacks.congr hclass, v, (hdatatype v).1 hv⟩)
  · refine .inr (.inr ⟨hlacks.congr hclass, hlacks'.congr hdatatype, path, ?_, v, ?_⟩)
    · exact hpath.congr (hs shPath (by simp [values]))
    · exact (h.alike path rdfsRange (by simp [values]) v).1 hv

theorem Acceptable.congr (ha : d.Acceptable m) : d'.Acceptable m where
  refable id hid v hv := by
    refine ha.refable id (h.isStructural_iff.2 hid) v (hv.congr ?_)
    exact h.symm.alike id m.referenceable (by simp [values])
  path id hid s' hs' := by
    obtain ⟨s, hs, halike⟩ := h.shapes_back id s' hs'
    obtain ⟨t, ht⟩ := ha.path id (h.isStructural_iff.2 hid) s hs
    exact ⟨t, (halike shPath (by simp [values]) _).1 ht⟩
  range id hid s' hs' := by
    obtain ⟨s, hs, halike⟩ := h.shapes_back id s' hs'
    exact (ha.range id (h.isStructural_iff.2 hid) s hs).congr h halike
  counts id hid s' hs' p hp v hv := by
    obtain ⟨s, hs, halike⟩ := h.shapes_back id s' hs'
    refine ha.counts id (h.isStructural_iff.2 hid) s hs p hp v (hv.congr (halike.symm p ?_))
    rcases hp with rfl | rfl <;> simp [values]
  acyclic id hid := by
    refine ha.acyclic id (Relation.TransGen.mono (fun a b hab => ?_) _ _ hid)
    exact h.extends_iff.2 hab

end Dataset
end OntologyModel

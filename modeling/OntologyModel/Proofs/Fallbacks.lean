/-
Which values of an enumeration are told apart by their names.

A value without a label is named by what its id has beyond the start that it shares with the id
of the class.  Every id loses a start of its own, and two ids that leave the id of the class at
different places may go on alike; then they have one name.  An id that is itself a start of the
id of the class leaves nothing for a name.  There are no other ways in which names are lost.
-/
import OntologyModel.Proofs.Classification
import OntologyModel.Proofs.CommonPrefix
import OntologyModel.Proofs.Independence

namespace OntologyModel

open Vocabulary

/-! ## Names and places -/

namespace Text

variable {whole start rest : List Char} {other text text' name name' : String}

/-- A text follows another up to some place and has a rest there that does not follow it any
further. -/
structure Branches (whole start rest : List Char) : Prop where
  along : start <+: whole
  off : ∀ c, rest.head? = some c → ¬start ++ [c] <+: whole

/-- No longer start is shared with a text than up to the place where it is left. -/
theorem Branches.isPrefix (h : Branches whole start rest) {q : List Char}
    (hsplit : q <+: start ++ rest) (hwhole : q <+: whole) : q <+: start := by
  rcases List.prefix_or_prefix_of_prefix hsplit (List.prefix_append start rest) with hle | hle
  · exact hle
  -- A longer start would follow the rest for at least one character.
  · obtain ⟨more, rfl⟩ := hle
    cases more with
    | nil => exact ⟨[], by simp⟩
    | cons c more =>
      have hhead : rest.head? = some c := by
        obtain ⟨tail, htail⟩ := (List.prefix_append_right_inj start).1 hsplit
        rw [← htail]
        rfl
      have hfollows : start ++ [c] <+: start ++ c :: more := ⟨more, by simp⟩
      exact absurd (hfollows.trans hwhole) (h.off c hhead)

theorem longestStart_iff_branches :
    LongestStart [start ++ rest, whole] start ↔ Branches whole start rest := by
  constructor
  · intro h
    refine ⟨h.shared whole (by simp), fun c hc hfollows => ?_⟩
    obtain ⟨rest', rfl⟩ := List.head?_eq_some_iff.1 hc
    have hlonger : start ++ [c] <+: start := by
      refine h.longest _ fun s hs => ?_
      rcases List.mem_pair.1 hs with rfl | rfl
      · exact ⟨rest', by simp⟩
      · exact hfollows
    have hlength := hlonger.length_le
    rw [List.length_append, List.length_singleton] at hlength
    exact absurd hlength (Nat.not_succ_le_self _)
  · intro h
    refine ⟨fun s hs => ?_, fun q hq => h.isPrefix (hq _ (by simp)) (hq _ (by simp))⟩
    rcases List.mem_pair.1 hs with rfl | rfl
    · exact List.prefix_append _ _
    · exact h.along

theorem beyond_iff : Beyond [other] text name ↔
    ∃ start, Branches other.toList start name.toList ∧ start ++ name.toList = text.toList := by
  refine exists_congr fun start => ?_
  rw [and_congr_left_iff]
  intro h
  rw [← longestStart_iff_branches, h]
  rfl

theorem Beyond.unique (h : Beyond [other] text name) (h' : Beyond [other] text name') :
    name = name' := by
  obtain ⟨p, hp, hname⟩ := h
  obtain ⟨q, hq, hname'⟩ := h'
  rw [← hname', hp.unique hq] at hname
  exact String.toList_inj.1 (List.append_cancel_left hname)

/-- Nothing is left of a text that another one starts with. -/
theorem Beyond.eq_empty_iff (h : Beyond [other] text name) :
    name = "" ↔ text.toList <+: other.toList := by
  constructor
  · rintro rfl
    obtain ⟨start, hbranches, hwhole⟩ := beyond_iff.1 h
    have hstart : start = text.toList := (List.append_nil start).symm.trans hwhole
    rw [← hstart]
    exact hbranches.along
  · intro hstart
    refine h.unique (beyond_iff.2 ⟨text.toList, ⟨hstart, fun c hc => ?_⟩, List.append_nil _⟩)
    cases hc

/-- Two texts go on alike where they leave a third one. -/
def Confused (other text text' : String) : Prop :=
  ∃ p q r, Branches other.toList p r ∧ Branches other.toList q r ∧
    p ++ r = text.toList ∧ q ++ r = text'.toList

theorem Beyond.eq_iff_confused (h : Beyond [other] text name) (h' : Beyond [other] text' name') :
    name = name' ↔ Confused other text text' := by
  constructor
  · rintro rfl
    obtain ⟨p, hp, hpr⟩ := beyond_iff.1 h
    obtain ⟨q, hq, hqr⟩ := beyond_iff.1 h'
    exact ⟨p, q, name.toList, hp, hq, hpr, hqr⟩
  · rintro ⟨p, q, r, hp, hq, hpr, hqr⟩
    rw [← String.toList_ofList (l := r)] at hp hq hpr hqr
    rw [h.unique (beyond_iff.2 ⟨p, hp, hpr⟩), h'.unique (beyond_iff.2 ⟨q, hq, hqr⟩)]

/-- Texts that share the same start with a third one go on differently. -/
theorem Confused.eq (h : Confused other text text')
    (hstart : LongestStart [text.toList, other.toList] start)
    (hstart' : LongestStart [text'.toList, other.toList] start) : text = text' := by
  obtain ⟨p, q, r, hp, hq, hpr, hqr⟩ := h
  rw [← longestStart_iff_branches, hpr] at hp
  rw [← longestStart_iff_branches, hqr] at hq
  rw [← String.toList_inj, ← hpr, ← hqr, hp.unique hstart, hq.unique hstart']

theorem longestStart_of_isPrefix (h : other.toList <+: text.toList) :
    LongestStart [text.toList, other.toList] other.toList where
  shared s hs := by
    rcases List.mem_pair.1 hs with rfl | rfl
    · exact h
    · exact List.prefix_rfl
  longest q hq := hq _ (by simp)

end Text

/-! ## Values without labels -/

namespace Classification

theorem partedInto_of_run {g : Source} {d : Dataset} {t t' : NameTable} {c : Classification}
    (hg : g.AnswersFrom d) (hrun : (ofGraph.run t).run g = .ok (c, t')) : d.PartedInto c := by
  rw [run_ofGraph hg] at hrun
  obtain ⟨k, hk, hnamed⟩ := Outcomes.map_eq_ok_iff.1 hrun
  have hkinds : k.AreOf d := (Kinds.ofGraph_ends (E := fun _ => True) hg).of_run_ok hk
  have henums := (Kinds.ofGraph_describes (E := fun _ => True) hg).of_run_ok hk
  have hparted := partedInto_ofKinds hkinds henums t
  rwa [hnamed] at hparted

end Classification

namespace Enum

open Text

variable {d : Dataset} {e : Enum} {v w : EnumValue}

def Unlabelled (d : Dataset) (e : Enum) : Prop := ∀ v ∈ e.values, d.Lacks (.iri v.id) rdfsLabel

/-- The values of an enumeration are told apart by names. -/
structure NamesApart (e : Enum) : Prop where
  named : ∀ v ∈ e.values, v.name ≠ ""
  distinct : (e.values.map EnumValue.name).Nodup

theorem Unlabelled.beyond (h : e.Unlabelled d) (hv : v ∈ e.values)
    (hname : d.NamesValue e.id v) : Beyond [e.id] v.id v.name := by
  rcases hname with ⟨label, hlabel, -⟩ | ⟨-, hbeyond⟩
  · exact absurd hlabel.holds (h v hv label)
  · exact hbeyond

theorem nodup_names_iff (hids : (e.values.map EnumValue.id).Nodup)
    (hbeyond : ∀ v ∈ e.values, Beyond [e.id] v.id v.name) :
    (e.values.map EnumValue.name).Nodup ↔
      ∀ v ∈ e.values, ∀ w ∈ e.values, v.id ≠ w.id → ¬Confused e.id v.id w.id := by
  rw [List.nodup_map_iff_inj_on hids.of_map]
  refine forall₂_congr fun v hv => forall₂_congr fun w hw => ?_
  rw [(hbeyond v hv).eq_iff_confused (hbeyond w hw), not_imp_not]
  refine imp_congr_right fun _ => ⟨congrArg EnumValue.id, List.inj_on_of_nodup_map hids hv hw⟩

end Enum

namespace Classification

open Text

variable {g : Source} {d : Dataset} {t t' : NameTable} {c : Classification} {e : Enum}

/-- Among values without labels a name is empty just if the id of the class starts with the id
of the value, and names are equal just if the ids go on alike where they leave the id of the
class.  Names are told apart otherwise, as where all ids leave the id of the class at one place,
and all the more behind its end. -/
theorem names_of_unlabelled (hg : g.AnswersFrom d) (hrun : (ofGraph.run t).run g = .ok (c, t'))
    (he : e ∈ c.enums) (hunlabelled : e.Unlabelled d) :
    (∀ v ∈ e.values, v.name = "" ↔ v.id.toList <+: e.id.toList) ∧
    (∀ v ∈ e.values, ∀ w ∈ e.values, v.name = w.name ↔ Confused e.id v.id w.id) ∧
    (e.NamesApart ↔ (∀ v ∈ e.values, ¬v.id.toList <+: e.id.toList) ∧
      ∀ v ∈ e.values, ∀ w ∈ e.values, v.id ≠ w.id → ¬Confused e.id v.id w.id) ∧
    (∀ start, (∀ v ∈ e.values, LongestStart [v.id.toList, e.id.toList] start) →
      (e.values.map EnumValue.name).Nodup) ∧
    ((∀ v ∈ e.values, e.id.toList <+: v.id.toList ∧ v.id ≠ e.id) → e.NamesApart) := by
  have hparted := partedInto_of_run hg hrun
  have hids : (e.values.map EnumValue.id).Nodup :=
    Text.nodup_of_pairwise_lt (hparted.values_ascending e he)
  have hbeyond (v : EnumValue) (hv : v ∈ e.values) : Beyond [e.id] v.id v.name :=
    hunlabelled.beyond hv (hparted.names e he v hv)
  have hnodup := Enum.nodup_names_iff hids hbeyond
  have hshared (start : List Char)
      (hstart : ∀ v ∈ e.values, LongestStart [v.id.toList, e.id.toList] start) :
      (e.values.map EnumValue.name).Nodup :=
    hnodup.2 fun v hv w hw hne hconfused => hne (hconfused.eq (hstart v hv) (hstart w hw))
  refine ⟨fun v hv => (hbeyond v hv).eq_empty_iff,
    fun v hv w hw => (hbeyond v hv).eq_iff_confused (hbeyond w hw), ?_, hshared, fun hbehind => ?_⟩
  · constructor
    · rintro ⟨hnamed, hdistinct⟩
      exact ⟨fun v hv => mt (hbeyond v hv).eq_empty_iff.2 (hnamed v hv), hnodup.1 hdistinct⟩
    · rintro ⟨hnamed, hdistinct⟩
      exact ⟨fun v hv => mt (hbeyond v hv).eq_empty_iff.1 (hnamed v hv), hnodup.2 hdistinct⟩
  · refine ⟨fun v hv hname => ?_, hshared _ fun v hv => longestStart_of_isPrefix (hbehind v hv).1⟩
    obtain ⟨hstart, hne⟩ := hbehind v hv
    have hback := (hbeyond v hv).eq_empty_iff.1 hname
    exact hne (String.toList_inj.1 (hback.eq_of_length_le hstart.length_le))

/-- Colours of which one has an id that the id of the class starts with, and two go on alike;
tones whose ids go on behind that of their class. -/
def colourChart : Dataset :=
  [⟨.iri "urn:Colour", rdfType, .resource (.iri owlClass), none⟩,
    ⟨.iri "urn:Col", rdfType, .resource (.iri "urn:Colour"), none⟩,
    ⟨.iri "urn:Col", rdfType, .resource (.iri owlNamedIndividual), none⟩,
    ⟨.iri "urn:Cored", rdfType, .resource (.iri "urn:Colour"), none⟩,
    ⟨.iri "urn:Cored", rdfType, .resource (.iri owlNamedIndividual), none⟩,
    ⟨.iri "urn:red", rdfType, .resource (.iri "urn:Colour"), none⟩,
    ⟨.iri "urn:red", rdfType, .resource (.iri owlNamedIndividual), none⟩,
    ⟨.iri "urn:Tone", rdfType, .resource (.iri owlClass), none⟩,
    ⟨.iri "urn:Tone/dark", rdfType, .resource (.iri "urn:Tone"), none⟩,
    ⟨.iri "urn:Tone/dark", rdfType, .resource (.iri owlNamedIndividual), none⟩,
    ⟨.iri "urn:Tone/pale", rdfType, .resource (.iri "urn:Tone"), none⟩,
    ⟨.iri "urn:Tone/pale", rdfType, .resource (.iri owlNamedIndividual), none⟩]

def colours : Enum :=
  ⟨"urn:Colour", "urn_Colour",
    [⟨"urn:Col", "", ""⟩, ⟨"urn:Cored", "red", ""⟩, ⟨"urn:red", "red", ""⟩], ""⟩

def tones : Enum :=
  ⟨"urn:Tone", "urn_Tone",
    [⟨"urn:Tone/dark", "/dark", ""⟩, ⟨"urn:Tone/pale", "/pale", ""⟩], ""⟩

def colourChartClasses : Classification := ⟨[colours, tones], ["urn:Colour", "urn:Tone"], []⟩

set_option maxRecDepth 10000 in
theorem run_colourChart : ∃ t, (ofGraph.run (.ofContext fun t => t)).run colourChart.source =
    .ok (colourChartClasses, t) := ⟨_, rfl⟩

theorem unlabelled_colourChart (e : Enum) : e.Unlabelled colourChart := by
  intro v _ label hlabel
  rw [Dataset.Holds] at hlabel
  have hnone : ∀ triple ∈ colourChart.triples, triple.predicate ≠ rdfsLabel := by decide
  exact hnone _ hlabel rfl

/-- One of the colours is left without a name, and two others have the same. -/
theorem not_namesApart_colours :
    (∃ t, (ofGraph.run (.ofContext fun t => t)).run colourChart.source =
      .ok (colourChartClasses, t)) ∧
    colours ∈ colourChartClasses.enums ∧ colours.Unlabelled colourChart ∧
    (∃ v ∈ colours.values, v.name = "") ∧
    (∃ v ∈ colours.values, ∃ w ∈ colours.values, v.id ≠ w.id ∧ v.name = w.name) ∧
    ¬colours.NamesApart := by
  refine ⟨run_colourChart, List.mem_cons_self, unlabelled_colourChart colours, ?_, ?_, ?_⟩
  · exact ⟨⟨"urn:Col", "", ""⟩, by decide, rfl⟩
  · exact ⟨⟨"urn:Cored", "red", ""⟩, by decide, ⟨"urn:red", "red", ""⟩, by decide, by decide, rfl⟩
  · exact fun h => h.named ⟨"urn:Col", "", ""⟩ (by decide) rfl

theorem names_of_unlabelled_colourChart :
    Confused "urn:Colour" "urn:Cored" "urn:red" ∧ tones.NamesApart := by
  obtain ⟨t, hrun⟩ := run_colourChart
  have hg := Source.answersFrom_source colourChart
  have hcolours : colours ∈ colourChartClasses.enums := List.mem_cons_self
  have htones : tones ∈ colourChartClasses.enums := List.mem_cons_of_mem _ List.mem_cons_self
  obtain ⟨-, hsame, -⟩ := names_of_unlabelled hg hrun hcolours (unlabelled_colourChart colours)
  obtain ⟨-, -, -, -, hbehind⟩ := names_of_unlabelled hg hrun htones (unlabelled_colourChart tones)
  refine ⟨?_, hbehind (by decide)⟩
  exact (hsame ⟨"urn:Cored", "red", ""⟩ (by decide) ⟨"urn:red", "red", ""⟩ (by decide)).1 rfl

end Classification
end OntologyModel

/-
How many short names are looked up.

A table that is used for a whole construction knows an identifier once, whether it names an
enumeration, a class, a property without a name of its own, or several of these.  What a
construction asks for is found by following its namings, and what it counts at the end is the
number of different identifiers among these: nothing is looked up that is not needed, and
nothing is counted twice.
-/
import OntologyModel.Proofs.Classification
import OntologyModel.Proofs.Requests
import OntologyModel.Proofs.Shapes
import OntologyModel.Proofs.Uniqueness
import Mathlib.Data.Set.Card

namespace OntologyModel

open Vocabulary

variable {g : Source} {d : Dataset} {k : Kinds} {metadata : Metadata} {context : String → String}
  {t : NameTable} {seen ids : List String} {id path classId : String} {m : Model}

/-! ## Counting -/

namespace NameTable

theorem Remembers.encard_eq (h : t.Remembers seen) {s : Set String}
    (hs : ∀ id, id ∈ s ↔ id ∈ seen) : s.encard = t.size := by
  have hset : s = seen.toFinset := by
    ext id
    rw [hs, List.coe_toFinset]
    exact Iff.rfl
  rw [hset, Set.encard_coe_eq_coe_finsetCard, List.card_toFinset, h.size_eq]

theorem Remembers.size_eq_length (h : t.Remembers seen) (hseen : seen.Nodup) :
    t.size = seen.length := by
  rw [h.size_eq, hseen.dedup]

end NameTable

namespace Inquiry

variable {α β : Type}

theorem findings_bind {x : Inquiry α} {a : α} (k : α → Inquiry β) (h : x.run g = .ok a) :
    (x >>= k).findings g = x.findings g ++ (k a).findings g := by
  induction x with
  | answer a' =>
    cases h
    rfl
  | failure e => cases h
  | ask q next ih =>
    change findings g (.ask q fun nodes => (next nodes).bind k) = findings g (.ask q next) ++ _
    simp only [run] at h
    simp only [findings]
    cases hq : g.answer q with
    | error cause =>
      rw [hq] at h
      cases h
    | ok nodes =>
      rw [hq] at h
      exact ih nodes h
  | note f next ih => exact congrArg (f :: ·) (ih h)

end Inquiry

/-! ## What is asked for -/

namespace PropertyFacts

/-- What is asked for to name a property: its path, unless it has a name already. -/
def asked (f : PropertyFacts) : List String :=
  match f.givenName with
  | some _ => []
  | none => [f.path]

theorem mem_asked {f : PropertyFacts} : path ∈ f.asked ↔ f.givenName = none ∧ path = f.path := by
  rw [asked]
  cases f.givenName with
  | some n => simp
  | none => simp

theorem named_asks (classId : String) (f : PropertyFacts) :
    Naming.Asks (f.named classId) f.asked := by
  have hname : Naming.Asks (f.name classId) f.asked := by
    rw [name, asked]
    cases f.givenName with
    | some n => exact Naming.asks_pure n
    | none => exact Naming.compactOr_asks _ _
  exact hname.map _

theorem ordered_asks (classId : String) (fs : List PropertyFacts) :
    Naming.Asks (ordered classId fs) (fs.flatMap asked) :=
  (Naming.Asks.all (named_asks classId) rfl (fun _ _ => rfl) fs).map _

end PropertyFacts

namespace ClassFacts

def asked (c : ClassFacts) : List String := c.properties.flatMap PropertyFacts.asked ++ [c.id]

theorem named_asks (c : ClassFacts) : Naming.Asks c.named c.asked :=
  (PropertyFacts.ordered_asks c.id c.properties).bind fun _ => (Naming.className_asks c.id).map _

theorem allNamed_asks (cs : List ClassFacts) : Naming.Asks (allNamed cs) (cs.flatMap asked) :=
  Naming.Asks.all named_asks rfl (fun _ _ => rfl) cs

end ClassFacts

theorem EnumFacts.named_asks (e : EnumFacts) : Naming.Asks e.named [e.id] :=
  (Naming.className_asks e.id).map _

theorem EnumFacts.allNamed_asks (es : List EnumFacts) :
    Naming.Asks (allNamed es) (es.map EnumFacts.id) := by
  rw [List.map_eq_flatMap]
  exact Naming.Asks.all named_asks rfl (fun _ _ => rfl) es

theorem ModelFacts.named_asks (f : ModelFacts) :
    Naming.Asks f.named (f.kinds.enumIds ++ f.classes.flatMap ClassFacts.asked) :=
  (EnumFacts.allNamed_asks f.kinds.enums).bind fun _ => (ClassFacts.allNamed_asks f.classes).map _

theorem Classification.ofKinds_asks (k : Kinds) : Naming.Asks (ofKinds k) k.enumIds :=
  (EnumFacts.allNamed_asks k.enums).map _

/-! ## What a dataset makes one ask for -/

namespace Dataset

def namelessPaths (d : Dataset) (id : String) : Set String :=
  {path | ∃ shape, d.HasShape id shape path ∧ d.Lacks shape shName}

theorem mem_asked_iff {fs : List PropertyFacts}
    (h : List.Forall₂ d.Identifies (d.objects (.iri id) shProperty) fs) :
    path ∈ fs.flatMap PropertyFacts.asked ↔ path ∈ d.namelessPaths id := by
  rw [List.mem_flatMap]
  constructor
  · intro hex
    obtain ⟨f, hf, hpath⟩ := hex
    obtain ⟨hnone, rfl⟩ := PropertyFacts.mem_asked.1 hpath
    obtain ⟨shape, hshape, hidentifies⟩ := exists_of_forall₂ h.flip hf
    obtain ⟨v, hv, hgiven⟩ := hidentifies.givenName
    rw [hnone] at hgiven
    obtain rfl := Option.map_eq_none_iff.1 hgiven.symm
    exact ⟨shape, ⟨mem_objects.1 hshape, hidentifies.path⟩, hv⟩
  · intro hex
    obtain ⟨shape, hshape, hlacks⟩ := hex
    obtain ⟨f, hf, hidentifies⟩ := exists_of_forall₂ h (mem_objects.2 hshape.1)
    obtain ⟨v, hv, hgiven⟩ := hidentifies.givenName
    have hlacksName : d.IsValue shape shName none := hlacks
    have hnone : v = none := IsValue.unique hv hlacksName
    refine ⟨f, hf, PropertyFacts.mem_asked.2 ⟨?_, ?_⟩⟩
    · rw [hgiven, hnone]
      rfl
    · exact Node.iri.inj (hshape.2.unique hidentifies.path)

def lookedUp (d : Dataset) (m : Model) : Set String :=
  {id | id ∈ m.enums.map Enum.id} ∪ {id | id ∈ m.classes.map Class.id} ∪
    {path | ∃ id, d.IsStructural id ∧ path ∈ d.namelessPaths id}

theorem mem_lookedUp {f : ModelFacts} (hm : d.Renders metadata m) (hf : f.AreOf d metadata) :
    id ∈ d.lookedUp m ↔ id ∈ f.kinds.enumIds ++ f.classes.flatMap ClassFacts.asked := by
  have hproperties (c : ClassFacts) (hc : c ∈ f.classes) :
      id ∈ c.properties.flatMap PropertyFacts.asked ↔ id ∈ d.namelessPaths c.id :=
    mem_asked_iff <| (hf.classes c hc).properties.imp fun shape p hp => ⟨hp.path, hp.givenName⟩
  have hclass (x : String) : d.IsStructural x ↔ ∃ c ∈ f.classes, c.id = x := by
    rw [← hf.kinds.mem_classIds, ← hf.map_id, List.mem_map]
  rw [List.mem_append, List.mem_flatMap, hf.kinds.mem_enumIds, ← hm.mem_enums]
  show (_ ∨ id ∈ m.classes.map Class.id) ∨ _ ↔ _
  rw [hm.mem_classes, or_assoc, hclass]
  -- A class asks for the paths of its nameless shapes first and for itself last.
  refine or_congr_right ⟨?_, ?_⟩
  · rintro (⟨c, hc, rfl⟩ | ⟨x, hx, hpath⟩)
    · exact ⟨c, hc, List.mem_append_right _ List.mem_cons_self⟩
    · obtain ⟨c, hc, rfl⟩ := (hclass x).1 hx
      exact ⟨c, hc, List.mem_append_left _ ((hproperties c hc).2 hpath)⟩
  · intro hex
    obtain ⟨c, hc, hid⟩ := hex
    rcases List.mem_append.1 hid with hid | hid
    · exact .inr ⟨c.id, (hclass c.id).2 ⟨c, hc, rfl⟩, (hproperties c hc).1 hid⟩
    · exact .inl ⟨c, hc, (List.mem_singleton.1 hid).symm⟩

end Dataset

/-! ## What is counted -/

/-- A classification that was reached has looked up the enumerations and nothing else. -/
theorem Classification.remembers_of_run (hg : g.AnswersFrom d) {c : Classification}
    (h : (ofGraph.run (.ofContext context)).run g = .ok (c, t)) :
    t.Remembers c.kinds.enumIds ∧ c.kinds.enumIds.Pairwise (· < ·) ∧
      ∀ id, id ∈ c.enumIds ↔ id ∈ c.kinds.enumIds := by
  rw [run_ofGraph hg] at h
  obtain ⟨k, hk, hnamed⟩ := Outcomes.map_eq_ok_iff.1 h
  have hkinds := kinds_ofKinds k (.ofContext context)
  have ht := ofKinds_asks k _ _ (NameTable.remembers_ofContext context)
  have henumIds : ((ofKinds k).run (.ofContext context)).1.enumIds =
    Text.ascendingTexts k.enumIds.reverse := rfl
  rw [hnamed] at hkinds ht henumIds
  obtain rfl := hkinds
  refine ⟨ht, ((Kinds.ofGraph_ends (E := fun _ => True) hg).of_run_ok hk).enums_ascending, ?_⟩
  intro id
  rw [henumIds, Text.mem_ascendingTexts, List.mem_reverse]

namespace Model

/-- What is left of a construction when everything is named. -/
def finish (draft : Model) (names : NameTable) : Inquiry Model :=
  match draft.arrange with
  | .error e => .failure e
  | .ok model => do
    Inquiry.found (.modelConstructed model.enums.length model.classes.length names.size)
    return model

theorem construction_eq_finish (context : String → String) (metadata : Metadata) :
    construction context metadata = ModelFacts.ofGraph metadata >>= fun facts =>
      finish (facts.named.run (.ofContext context)).1 (facts.named.run (.ofContext context)).2 :=
  rfl

theorem findings_finish {draft : Model} {names : NameTable}
    (h : (finish draft names).run g = .ok m) : (finish draft names).findings g =
      [.modelConstructed m.enums.length m.classes.length names.size] := by
  rw [finish] at h ⊢
  cases harrange : draft.arrange with
  | error e =>
    rw [harrange] at h
    cases h
  | ok model =>
    rw [harrange] at h
    cases h
    rfl

theorem exists_facts_of_findings (hg : g.AnswersFrom d) (h : build g context metadata = .ok m) :
    ∃ facts : ModelFacts, facts.AreOf d metadata ∧
      ((construction context metadata).findings g).getLast? =
        some (.modelConstructed m.enums.length m.classes.length
          (facts.named.run (.ofContext context)).2.size) := by
  rw [build, construction_eq_finish, Inquiry.run_bind] at h
  cases hrun : (ModelFacts.ofGraph metadata).run g with
  | error e =>
    rw [hrun] at h
    cases h
  | ok facts =>
    rw [hrun] at h
    refine ⟨facts, (ModelFacts.ofGraph_areOf hg).of_run_ok hrun, ?_⟩
    rw [construction_eq_finish, Inquiry.findings_bind _ hrun, findings_finish h,
      List.getLast?_concat]

/-- Each identifier is counted once.  A model that is reached was named with as many short
names as there are different identifiers of enumerations, of classes, and of the properties
whose shapes give no name.  A classification has looked up one for each enumeration, and the
properties of a class that are built after it add the paths of the shapes without a name. -/
theorem each_id_looked_up_once (hg : g.AnswersFrom d) (context : String → String) :
    (∀ metadata m, build g context metadata = .ok m →
      ∃ n, ((construction context metadata).findings g).getLast? =
          some (.modelConstructed m.enums.length m.classes.length n) ∧
        (d.lookedUp m).encard = n) ∧
    ∀ c t, (Classification.ofGraph.run (.ofContext context)).run g = .ok (c, t) →
      t.size = c.enums.length ∧
      ∀ classId ps t', ((Shape.buildAll c.kinds classId).run t).run g = .ok (ps, t') →
        ({id | id ∈ c.enumIds} ∪ d.namelessPaths classId).encard = t'.size := by
  refine ⟨fun metadata m hm => ?_, fun c t hrun => ?_⟩
  · obtain ⟨facts, hfacts, hfindings⟩ := exists_facts_of_findings hg hm
    have hknown := facts.named_asks _ _ (NameTable.remembers_ofContext context)
    refine ⟨_, hfindings, hknown.encard_eq fun id => ?_⟩
    exact Dataset.mem_lookedUp (renders_of_build hg hm) hfacts
  · obtain ⟨ht, hascending, hmem⟩ := Classification.remembers_of_run hg hrun
    refine ⟨?_, fun classId ps t' hps => ?_⟩
    · rw [ht.size_eq_length (Text.nodup_of_pairwise_lt hascending), ← c.map_id_eq, List.length_map]
    · rw [Shape.buildAll_splits, Inquiry.run_bind] at hps
      obtain ⟨fs, hfs, hordered⟩ := Outcomes.map_eq_ok_iff.1 hps
      have ht' := PropertyFacts.ordered_asks classId fs t _ ht
      rw [hordered] at ht'
      refine ht'.encard_eq fun id => ?_
      have hidentified := (Shape.properties_identified hg c.kinds classId).of_run_ok hfs
      rw [List.mem_append, Dataset.mem_asked_iff hidentified, ← hmem]
      exact Iff.rfl

/-- Two vehicles.  The ids of an enumeration and of a class are paths of nameless shapes as
well, one shape is shared, and the wheels have a name. -/
def garage : Dataset :=
  [⟨.iri "urn:Colour", rdfType, .resource (.iri owlClass), none⟩,
    ⟨.iri "urn:red", rdfType, .resource (.iri "urn:Colour"), none⟩,
    ⟨.iri "urn:red", rdfType, .resource (.iri owlNamedIndividual), none⟩,
    ⟨.iri "urn:Car", rdfType, .resource (.iri owlClass), none⟩,
    ⟨.iri "urn:Car", shProperty, .resource (.blank "doors"), none⟩,
    ⟨.iri "urn:Car", shProperty, .resource (.blank "paint"), none⟩,
    ⟨.iri "urn:Car", shProperty, .resource (.blank "spare"), none⟩,
    ⟨.iri "urn:Car", shProperty, .resource (.blank "wheels"), none⟩,
    ⟨.iri "urn:Van", rdfType, .resource (.iri owlClass), none⟩,
    ⟨.iri "urn:Van", shProperty, .resource (.blank "doors"), none⟩,
    ⟨.blank "doors", shPath, .resource (.iri "urn:doors"), none⟩,
    ⟨.blank "doors", shDatatype, .resource (.iri "urn:number"), none⟩,
    ⟨.blank "paint", shPath, .resource (.iri "urn:Colour"), none⟩,
    ⟨.blank "paint", shClass, .resource (.iri "urn:Colour"), none⟩,
    ⟨.blank "spare", shPath, .resource (.iri "urn:Car"), none⟩,
    ⟨.blank "spare", shClass, .resource (.iri "urn:Van"), none⟩,
    ⟨.blank "wheels", shPath, .resource (.iri "urn:wheels"), none⟩,
    ⟨.blank "wheels", shName, .literal "wheels" .plain, none⟩,
    ⟨.blank "wheels", shDatatype, .resource (.iri "urn:number"), none⟩]

set_option maxRecDepth 10000 in
theorem each_id_looked_up_once_garage :
    (∃ m, build garage.source (fun t => t) (.ofNamespace defaultMetadataNamespace) = .ok m ∧
      (garage.lookedUp m).encard = 4) ∧
    ∃ c t, (Classification.ofGraph.run (.ofContext fun t => t)).run garage.source = .ok (c, t) ∧
      t.size = 1 ∧
      ∃ ps t', ((Shape.buildAll c.kinds "urn:Car").run t).run garage.source = .ok (ps, t') ∧
        ({id | id ∈ c.enumIds} ∪ garage.namelessPaths "urn:Car").encard = 3 := by
  obtain ⟨hbuild, hclassify⟩ :=
    each_id_looked_up_once (Source.answersFrom_source garage) fun t => t
  refine ⟨⟨_, rfl, ?_⟩, _, _, rfl, rfl, _, _, rfl, ?_⟩
  · obtain ⟨n, hfinding, hn⟩ := hbuild (.ofNamespace defaultMetadataNamespace) _ rfl
    rw [hn]
    cases hfinding
    rfl
  · rw [(hclassify _ _ rfl).2 "urn:Car" _ _ rfl]
    rfl

end Model
end OntologyModel

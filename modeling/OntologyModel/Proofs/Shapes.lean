/-
The properties of a class, shape by shape.

All shapes of a class are visited with one table of short names, and the properties are put in
order at the end.  Each shape gives the property that it gives with a table of its own, so that
the list of properties is a rearrangement of what the shapes give alone: by path and name, and
in the order of the shapes where these agree.  The first shape that gives nothing decides on the
error.
-/
import OntologyModel.Proofs.Independence
import OntologyModel.Proofs.Prefixes
import OntologyModel.Proofs.Properties

namespace OntologyModel

open Vocabulary

variable {context : String → String} {g : Source} {d : Dataset} {k : Kinds} {t : NameTable}
  {classId path : String} {shape : Node} {shapes : List Node}

namespace Outcomes

variable {ε α β γ : Type}

theorem mapM_map (f : α → Except ε β) (h : β → γ) (l : List α) :
    l.mapM (fun a => h <$> f a) = List.map h <$> l.mapM f := by
  induction l with
  | nil => rfl
  | cons a l ih =>
    rw [List.mapM_cons, List.mapM_cons, ih]
    cases f a with
    | error e => rfl
    | ok b =>
      cases l.mapM f with
      | error e => rfl
      | ok bs => rfl

theorem exists_mapM_eq_ok_iff {f : α → Except ε β} {l : List α} :
    (∃ bs, l.mapM f = .ok bs) ↔ ∀ a ∈ l, ∃ b, f a = .ok b := by
  constructor
  · intro h a ha
    obtain ⟨bs, hbs⟩ := h
    obtain ⟨b, -, hb⟩ := Dataset.exists_of_forall₂ (mapM_eq_ok_iff.1 hbs) ha
    exact ⟨b, hb⟩
  · intro h
    induction l with
    | nil => exact ⟨[], rfl⟩
    | cons a l ih =>
      obtain ⟨⟨b, hb⟩, hl⟩ := List.forall_mem_cons.1 h
      obtain ⟨bs, hbs⟩ := ih hl
      refine ⟨b :: bs, ?_⟩
      rw [List.mapM_cons, hb, hbs]
      rfl

end Outcomes

instance Node.asymm_before : Std.Asymm fun a b : Node => a.before b = true where
  asymm a b hab hba := by
    rw [strictOrder_before.asymm hab] at hba
    exact Bool.false_ne_true hba

/-! ## One shape -/

namespace Shape

def builtWith (t : NameTable) (g : Source) (k : Kinds) (classId : String) (shape : Node) :
    Except ModelError Property :=
  Prod.fst <$> ((build k classId shape).run t).run g

def builtAlone (context : String → String) : Source → Kinds → String → Node →
    Except ModelError Property := builtWith (.ofContext context)

def allBuiltWith (t : NameTable) (g : Source) (k : Kinds) (classId : String) :
    Except ModelError (List Property) :=
  Prod.fst <$> ((buildAll k classId).run t).run g

theorem builtWith_eq (ht : t.Faithful context) (shape : Node) :
    builtWith t g k classId shape =
      PropertyFacts.namedIn context classId <$> (property k classId shape).run g :=
  Class.run_of_splits (build_splits k classId shape) (PropertyFacts.named_yields classId) ht

theorem run_propertiesOf (shapes : List Node) :
    (propertiesOf k classId shapes).run g =
      shapes.mapM fun shape => (property k classId shape).run g := by
  induction shapes with
  | nil => rfl
  | cons shape rest ih =>
    rw [propertiesOf, Inquiry.run_bind, List.mapM_cons, ← ih]
    refine congrArg (_ >>= ·) (funext fun f => ?_)
    exact Inquiry.run_bind g (propertiesOf k classId rest) _

theorem run_properties (hshapes : g.answer (.objects (.iri classId) shProperty) = .ok shapes) :
    (properties k classId).run g = (propertiesOf k classId shapes).run g :=
  Inquiry.run_ask _ _ hshapes

/-- All properties are what each shape gives alone, sorted. -/
theorem allBuiltWith_eq (ht : t.Faithful context)
    (hshapes : g.answer (.objects (.iri classId) shProperty) = .ok shapes) :
    allBuiltWith t g k classId =
      Text.sortStable Property.before <$> shapes.mapM (builtAlone context g k classId) := by
  have halone : builtAlone context g k classId = fun shape =>
      PropertyFacts.namedIn context classId <$> (property k classId shape).run g :=
    funext fun shape => builtWith_eq (NameTable.faithful_ofContext context) shape
  have hnamed : allBuiltWith t g k classId =
      PropertyFacts.orderedIn context classId <$> (properties k classId).run g :=
    Class.run_of_splits (buildAll_splits k classId) (PropertyFacts.ordered_yields classId) ht
  rw [hnamed, run_properties hshapes, run_propertiesOf, halone, Outcomes.mapM_map]
  cases shapes.mapM fun shape => (property k classId shape).run g with
  | error e => rfl
  | ok fs => rfl

end Shape

/-! ## Names of properties -/

structure Dataset.Identifies (d : Dataset) (shape : Node) (f : PropertyFacts) : Prop where
  path : d.Least shape shPath (.iri f.path)
  givenName : ∃ v, d.IsValue shape shName v ∧ f.givenName = v.map Node.text

namespace Shape

/-- A property is named by its shape, or else by the short form of its path, or else by what
its path has beyond the start that it shares with the id of the class. -/
def Names (d : Dataset) (context : String → String) (classId : String) (shape : Node)
    (p : Property) : Prop :=
  (∃ v, d.Least shape shName v ∧ p.name = v.text) ∨
    d.Lacks shape shName ∧ context p.path ≠ p.path ∧ p.name = context p.path ∨
    d.Lacks shape shName ∧ context p.path = p.path ∧ Text.Beyond [classId] p.path p.name

theorem property_identified (hg : g.AnswersFrom d) (k : Kinds) (classId : String) (shape : Node) :
    (property k classId shape).Ends g (d.Identifies shape) fun _ => True := by
  refine (Inquiry.ends_value hg shape shPath).bind fun path hpath => ?_
  match path, hpath with
  | some (.iri path), hpath =>
    refine (Inquiry.ends_value hg shape shName).bind fun givenName hname => ?_
    refine Inquiry.ends_any.bind fun range _ => Inquiry.Ends.found ?_
    refine Inquiry.ends_any.bind fun comment _ => Inquiry.ends_any.bind fun minCount _ => ?_
    refine Inquiry.ends_any.bind fun maxCount _ => Inquiry.ends_pure ?_
    exact ⟨hpath, givenName, hname, rfl⟩
  | none, _ => exact Inquiry.ends_failure trivial
  | some (.blank _), _ => exact Inquiry.ends_failure trivial
  | some (.literal _), _ => exact Inquiry.ends_failure trivial

theorem propertiesOf_identified (hg : g.AnswersFrom d) (k : Kinds) (classId : String)
    (shapes : List Node) :
    (propertiesOf k classId shapes).Ends g (List.Forall₂ d.Identifies shapes) fun _ => True := by
  induction shapes with
  | nil => exact Inquiry.ends_pure .nil
  | cons shape rest ih =>
    refine (property_identified hg k classId shape).bind fun f hf => ?_
    exact ih.bind fun fs hfs => Inquiry.ends_pure (.cons hf hfs)

theorem properties_identified (hg : g.AnswersFrom d) (k : Kinds) (classId : String) :
    (properties k classId).Ends g
      (List.Forall₂ d.Identifies (d.objects (.iri classId) shProperty)) fun _ => True := by
  refine (Inquiry.ends_objects hg _ _).bind fun shapes hshapes => ?_
  rw [hshapes]
  exact propertiesOf_identified hg k classId _

theorem names_of_builtAlone (hg : g.AnswersFrom d) {p : Property}
    (h : builtAlone context g k classId shape = .ok p) :
    d.Least shape shPath (.iri p.path) ∧ Names d context classId shape p := by
  rw [builtAlone, builtWith_eq (NameTable.faithful_ofContext context)] at h
  obtain ⟨f, hread, rfl⟩ := Outcomes.map_eq_ok_iff.1 h
  obtain ⟨hpath, v, hv, hgiven⟩ := (property_identified hg k classId shape).of_run_ok hread
  refine ⟨hpath, ?_⟩
  have hname : (f.namedIn context classId).name = f.givenName.getD
      (Naming.compactOrIn context f.path (Text.removeCommonPrefix f.path [classId])) := rfl
  cases v with
  | some v =>
    refine .inl ⟨v, hv, ?_⟩
    rw [hname, hgiven]
    rfl
  | none =>
    rw [hgiven] at hname
    by_cases hshort : context f.path = f.path
    · refine .inr (.inr ⟨hv, hshort, ?_⟩)
      rw [hname]
      show Text.Beyond [classId] f.path (Naming.compactOrIn context f.path _)
      rw [Naming.compactOrIn, if_pos hshort]
      exact Text.beyond_removeCommonPrefix f.path [classId]
    · refine .inr (.inl ⟨hv, hshort, ?_⟩)
      rw [hname]
      exact if_neg hshort

end Shape

/-! ## All shapes -/

namespace Property

/-- The properties of a list in the order of path and name; those that agree in both keep the
places that they have among themselves. -/
structure Arranges (ps qs : List Property) : Prop where
  perm : ps.Perm qs
  sorted : ps.Pairwise fun p q => p.path < q.path ∨ p.path = q.path ∧ p.name ≤ q.name
  stable : ∀ path name, ps.filter (fun p => p.path = path ∧ p.name = name) =
    qs.filter fun p => p.path = path ∧ p.name = name

theorem arranges_sortStable (qs : List Property) : Arranges (Text.sortStable before qs) qs where
  perm := Text.perm_sortStable before qs
  sorted := by
    refine (Text.pairwise_sortStable ranking_before qs).imp fun {p q} hqp => ?_
    obtain ⟨hpath, hname⟩ := Bool.or_eq_false_iff.1 hqp
    by_cases hlt : p.path < q.path
    · exact .inl hlt
    · have heq : p.path = q.path :=
        Text.strictOrder_before.connected (Text.before_eq_false_iff.2 hlt) hpath
      rw [heq, decide_eq_true rfl, Bool.true_and] at hname
      exact .inr ⟨heq, Text.before_eq_false_iff.1 hname⟩
  stable path name := by
    refine Text.filter_sortStable (fun a b ha hb => ?_) qs
    obtain ⟨hpath, hname⟩ := of_decide_eq_true ha
    obtain ⟨hpath', hname'⟩ := of_decide_eq_true hb
    have hkey : a.key = b.key := by
      rw [key, key, hpath, hname, hpath', hname']
    rw [before_eq, hkey]
    exact strictOrder_keyBefore.irrefl _

end Property

namespace Shape

/-- The shapes of a class are visited in ascending order, each of them once.  All of them have
to give a property alone, and then the class has one property for each of them, in order; or
the first one that gives none decides on the error.  The table of short names that is shared
between them makes no difference. -/
theorem allBuiltWith_shape_by_shape (hg : g.AnswersFrom d) (ht : t.Faithful context) (k : Kinds)
    (classId : String) :
    (∀ cause, g.answer (.objects (.iri classId) shProperty) = .error cause →
      allBuiltWith t g k classId = .error (.graph cause)) ∧
    ∀ shapes, g.answer (.objects (.iri classId) shProperty) = .ok shapes →
      (shapes.Pairwise fun a b => a.before b = true) ∧
      (∀ shape, shape ∈ shapes ↔ d.Holds (.iri classId) shProperty shape) ∧
      ((∃ ps, allBuiltWith t g k classId = .ok ps) ↔
        ∀ shape ∈ shapes, ∃ p, builtAlone context g k classId shape = .ok p) ∧
      (∀ ps, allBuiltWith t g k classId = .ok ps →
        ∃ qs, List.Forall₂ (fun shape q => builtAlone context g k classId shape = .ok q) shapes qs ∧
          Property.Arranges ps qs) ∧
      (∀ e, allBuiltWith t g k classId = .error e ↔
        ∃ shape ∈ shapes, builtAlone context g k classId shape = .error e ∧
          ∀ earlier ∈ shapes, earlier.before shape = true →
            ∃ p, builtAlone context g k classId earlier = .ok p) ∧
      ∀ shape p, builtAlone context g k classId shape = .ok p →
        d.Least shape shPath (.iri p.path) ∧ Names d context classId shape p := by
  refine ⟨fun cause hcause => ?_, fun shapes hshapes => ?_⟩
  · have hrun : (properties k classId).run g = .error (.graph cause) :=
      Inquiry.run_ask_error _ _ hcause
    rw [allBuiltWith, buildAll_splits k classId t, Inquiry.run_bind, hrun]
    rfl
  have hobjects : shapes = d.objects (.iri classId) shProperty := hg _ _ hshapes
  have hascending : shapes.Pairwise fun a b => a.before b = true := by
    rw [hobjects]
    exact d.pairwise_objects _ _
  have hall := allBuiltWith_eq (k := k) ht hshapes
  refine ⟨hascending, fun shape => ?_, ?_, fun ps hps => ?_, fun e => ?_, fun shape p hp => ?_⟩
  · rw [hobjects]
    exact Dataset.mem_objects
  · rw [hall, ← Outcomes.exists_mapM_eq_ok_iff]
    constructor
    · intro h
      obtain ⟨ps, hps⟩ := h
      obtain ⟨qs, hqs, -⟩ := Outcomes.map_eq_ok_iff.1 hps
      exact ⟨qs, hqs⟩
    · intro h
      obtain ⟨qs, hqs⟩ := h
      exact ⟨_, Outcomes.map_eq_ok_iff.2 ⟨qs, hqs, rfl⟩⟩
  · rw [hall] at hps
    obtain ⟨qs, hqs, rfl⟩ := Outcomes.map_eq_ok_iff.1 hps
    exact ⟨qs, Outcomes.mapM_eq_ok_iff.1 hqs, Property.arranges_sortStable qs⟩
  · rw [hall, Outcomes.map_eq_error_iff]
    exact Outcomes.mapM_eq_error_iff hascending
  · exact names_of_builtAlone hg hp

/-- A trailer whose wheels are counted by two shapes, and a sledge with a shape that has no
path. -/
def trailer : Dataset :=
  [⟨.iri "urn:Trailer", shProperty, .resource (.blank "few"), none⟩,
    ⟨.blank "few", shPath, .resource (.iri "urn:wheels"), none⟩,
    ⟨.blank "few", shDatatype, .resource (.iri "urn:number"), none⟩,
    ⟨.blank "few", shMinCount, .literal "2" .plain, none⟩,
    ⟨.iri "urn:Trailer", shProperty, .resource (.blank "many"), none⟩,
    ⟨.blank "many", shPath, .resource (.iri "urn:wheels"), none⟩,
    ⟨.blank "many", shDatatype, .resource (.iri "urn:number"), none⟩,
    ⟨.iri "urn:Trailer", shProperty, .resource (.iri "urn:towing"), none⟩,
    ⟨.iri "urn:towing", shPath, .resource (.iri "urn:Trailer/towing"), none⟩,
    ⟨.iri "urn:towing", shDatatype, .resource (.iri "urn:hook"), none⟩,
    ⟨.iri "urn:Sledge", shProperty, .resource (.blank "runners"), none⟩,
    ⟨.blank "runners", shPath, .resource (.iri "urn:runners"), none⟩,
    ⟨.iri "urn:Sledge", shProperty, .resource (.blank "lost"), none⟩,
    ⟨.iri "urn:Sledge", shProperty, .resource (.iri "urn:towing"), none⟩]

set_option maxRecDepth 10000 in
theorem allBuiltWith_trailer :
    Class.usedTable.Faithful (fun t => t) ∧
      (∃ ps qs, allBuiltWith Class.usedTable trailer.source Kinds.empty "urn:Trailer" = .ok ps ∧
        ps.map Property.key = [("urn:Trailer/towing", "/towing"), ("urn:wheels", "wheels"),
          ("urn:wheels", "wheels")] ∧ Property.Arranges ps qs) ∧
      allBuiltWith Class.usedTable trailer.source Kinds.empty "urn:Sledge" =
        .error (.missingPropertyPath "urn:Sledge" "_:lost") ∧
      ∃ shape, builtAlone (fun t => t) trailer.source Kinds.empty "urn:Sledge" shape =
        .error (.missingPropertyPath "urn:Sledge" "_:lost") := by
  have ht : Class.usedTable.Faithful (fun t => t) := ⟨rfl, by decide⟩
  have hsledge : allBuiltWith Class.usedTable trailer.source Kinds.empty "urn:Sledge" =
      .error (.missingPropertyPath "urn:Sledge" "_:lost") := by rfl
  obtain ⟨-, htrailer⟩ := allBuiltWith_shape_by_shape (Source.answersFrom_source trailer) ht
    Kinds.empty "urn:Trailer"
  obtain ⟨-, hlost⟩ := allBuiltWith_shape_by_shape (Source.answersFrom_source trailer) ht
    Kinds.empty "urn:Sledge"
  obtain ⟨-, -, -, harranged, -⟩ := htrailer _ rfl
  obtain ⟨-, -, -, -, herror, -⟩ := hlost _ rfl
  obtain ⟨qs, -, hqs⟩ := harranged _ rfl
  obtain ⟨shape, -, hshape, -⟩ := (herror _).1 hsledge
  exact ⟨ht, ⟨_, qs, rfl, rfl, hqs⟩, hsledge, shape, hshape⟩

end Shape
end OntologyModel

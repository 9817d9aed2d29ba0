/-
Classes do not depend on each other.

All classes of a graph are built one after the other with one table of short names.  The
table makes no difference: each class is what it would be with a table of its own, and the
first class that cannot be built decides on the error, whatever was built before it.  Only
when every class can be built are they put in order, so that a cycle between different
classes is found last.
-/
import OntologyModel.Proofs.Acceptance
import OntologyModel.Proofs.Building
import OntologyModel.Proofs.Names
import OntologyModel.Proofs.Scope
import Mathlib.Data.List.Forall2

namespace OntologyModel

open Vocabulary
open Model (tangle)

variable {context : String → String} {g : Source} {k : Kinds} {m : Metadata} {t : NameTable}

/-! ## Outcomes in a row -/

namespace Outcomes

variable {ε α β : Type}

theorem map_eq_ok_iff {f : α → β} {x : Except ε α} {b : β} :
    f <$> x = .ok b ↔ ∃ a, x = .ok a ∧ f a = b := by
  cases x with
  | error e => simp [Functor.map, Except.map]
  | ok a => simp [Functor.map, Except.map]

theorem map_eq_error_iff {f : α → β} {x : Except ε α} {e : ε} :
    f <$> x = .error e ↔ x = .error e := by
  cases x with
  | error e' => simp [Functor.map, Except.map]
  | ok a => simp [Functor.map, Except.map]

theorem mapM_eq_ok_iff {f : α → Except ε β} {l : List α} {bs : List β} :
    l.mapM f = .ok bs ↔ List.Forall₂ (fun a b => f a = .ok b) l bs := by
  induction l generalizing bs with
  | nil =>
    rw [List.mapM_nil, List.forall₂_nil_left_iff]
    exact ⟨fun h => (Except.ok.inj h).symm, fun h => h ▸ rfl⟩
  | cons a l ih =>
    rw [List.mapM_cons, List.forall₂_cons_left_iff]
    cases ha : f a with
    | error e => simp [bind, Except.bind]
    | ok b =>
      cases hl : l.mapM f with
      | error e => simp [bind, Except.bind, ← ih, hl]
      | ok bs' => simp [bind, Except.bind, pure, Except.pure, ← ih, hl, eq_comm]

/-- The least element at which something fails decides on the error. -/
theorem mapM_eq_error_iff {f : α → Except ε β} {r : α → α → Prop} [Std.Asymm r] {l : List α}
    (hl : l.Pairwise r) {e : ε} : l.mapM f = .error e ↔
      ∃ a ∈ l, f a = .error e ∧ ∀ b ∈ l, r b a → ∃ c, f b = .ok c := by
  induction l with
  | nil =>
    rw [List.mapM_nil]
    simp [pure, Except.pure]
  | cons a l ih =>
    obtain ⟨hfirst, hrest⟩ := List.pairwise_cons.1 hl
    rw [List.mapM_cons]
    cases ha : f a with
    | error e' =>
      constructor
      · intro h
        cases h
        refine ⟨a, List.mem_cons_self, ha, fun b hb hba => ?_⟩
        rcases List.mem_cons.1 hb with rfl | hb
        · exact absurd hba (Std.Asymm.asymm b b hba)
        · exact absurd hba (Std.Asymm.asymm a b (hfirst b hb))
      · intro h
        obtain ⟨x, hx, hfx, hbefore⟩ := h
        rcases List.mem_cons.1 hx with rfl | hx
        · rw [ha] at hfx
          cases hfx
          rfl
        · obtain ⟨c, hc⟩ := hbefore a List.mem_cons_self (hfirst x hx)
          rw [ha] at hc
          cases hc
    | ok c =>
      have hskip : (l.mapM f >>= fun cs => pure (c :: cs)) = .error e ↔ l.mapM f = .error e := by
        cases l.mapM f with
        | error e' => simp [bind, Except.bind]
        | ok cs => simp [bind, Except.bind, pure, Except.pure]
      show (l.mapM f >>= fun cs => pure (c :: cs)) = .error e ↔ _
      rw [hskip, ih hrest]
      constructor
      · intro h
        obtain ⟨x, hx, hfx, hbefore⟩ := h
        refine ⟨x, List.mem_cons_of_mem a hx, hfx, fun b hb hbx => ?_⟩
        rcases List.mem_cons.1 hb with rfl | hb
        · exact ⟨c, ha⟩
        · exact hbefore b hb hbx
      · intro h
        obtain ⟨x, hx, hfx, hbefore⟩ := h
        rcases List.mem_cons.1 hx with rfl | hx
        · rw [ha] at hfx
          cases hfx
        · exact ⟨x, hx, hfx, fun b hb hbx => hbefore b (List.mem_cons_of_mem a hb) hbx⟩

end Outcomes

/-! ## One class -/

theorem ClassFacts.read_ends_id (id : String) :
    (read k m id).Ends g (fun c => c.id = id) fun _ => True := by
  rw [read]
  refine Inquiry.ends_any.bind fun _ _ => Inquiry.ends_any.bind fun _ _ => ?_
  refine Inquiry.ends_any.bind fun _ _ => Inquiry.ends_any.bind fun _ _ => ?_
  exact Inquiry.ends_any.bind fun _ _ => Inquiry.ends_pure rfl

namespace Class

/-- The class of an id, built over a graph with a table of short names. -/
def builtWith (t : NameTable) (g : Source) (k : Kinds) (m : Metadata) (id : String) :
    Except ModelError Class :=
  Prod.fst <$> ((build k m id).run t).run g

/-- The class of an id, built alone: no short name is known before. -/
def builtAlone (context : String → String) : Source → Kinds → Metadata → String →
    Except ModelError Class := builtWith (.ofContext context)

def allBuiltWith (t : NameTable) (g : Source) (k : Kinds) (m : Metadata) (ids : List String) :
    Except ModelError (List Class) :=
  Prod.fst <$> ((buildAll k m ids).run t).run g

theorem run_of_splits {α β : Type} {x : Building β} {facts : Inquiry α} {name : α → Naming β}
    {named : α → β} (hsplits : x.Splits facts name)
    (hnamed : ∀ a, Naming.Yields context (name a) (named a)) (ht : t.Faithful context) :
    Prod.fst <$> (x.run t).run g = named <$> facts.run g := by
  rw [hsplits t, Inquiry.run_bind]
  cases facts.run g with
  | error e => rfl
  | ok a => exact congrArg Except.ok (hnamed a t ht).1

theorem builtWith_eq (ht : t.Faithful context) (id : String) :
    builtWith t g k m id = ClassFacts.namedIn context <$> (ClassFacts.read k m id).run g :=
  run_of_splits (build_splits k m id) ClassFacts.named_yields ht

theorem allBuiltWith_eq (ht : t.Faithful context) (ids : List String) :
    allBuiltWith t g k m ids =
      List.map (ClassFacts.namedIn context) <$> (ClassFacts.readAll k m ids).run g :=
  run_of_splits (buildAll_splits k m ids) ClassFacts.allNamed_yields ht

/-- A table of right answers does not show in a class. -/
theorem builtWith_eq_builtAlone (ht : t.Faithful context) (id : String) :
    builtWith t g k m id = builtAlone context g k m id := by
  rw [builtAlone, builtWith_eq ht, builtWith_eq (NameTable.faithful_ofContext context)]

/-- Building in a row is building each class alone, up to the first that fails. -/
theorem allBuiltWith_eq_mapM (ht : t.Faithful context) (ids : List String) :
    allBuiltWith t g k m ids = ids.mapM (builtAlone context g k m) := by
  rw [allBuiltWith_eq ht]
  induction ids with
  | nil => rfl
  | cons id rest ih =>
    rw [List.mapM_cons, ← ih, builtAlone, builtWith_eq (NameTable.faithful_ofContext context),
      ClassFacts.readAll, Inquiry.run_bind]
    cases (ClassFacts.read k m id).run g with
    | error e => rfl
    | ok c =>
      show _ <$> (ClassFacts.readAll k m rest >>= fun cs => pure (c :: cs)).run g = _
      rw [Inquiry.run_bind]
      cases (ClassFacts.readAll k m rest).run g with
      | error e => rfl
      | ok cs => rfl

theorem id_of_builtAlone {id : String} {c : Class} (h : builtAlone context g k m id = .ok c) :
    c.id = id := by
  rw [builtAlone, builtWith_eq (NameTable.faithful_ofContext context)] at h
  obtain ⟨f, hread, rfl⟩ := Outcomes.map_eq_ok_iff.1 h
  exact (ClassFacts.read_ends_id id).of_run_ok hread

/-! ## All classes -/

theorem allBuiltWith_eq_ok_iff (ht : t.Faithful context) {ids : List String} {cs : List Class} :
    allBuiltWith t g k m ids = .ok cs ↔
      cs.map Class.id = ids ∧ ∀ c ∈ cs, builtAlone context g k m c.id = .ok c := by
  rw [allBuiltWith_eq_mapM ht, Outcomes.mapM_eq_ok_iff]
  constructor
  · intro h
    induction h with
    | nil => exact ⟨rfl, fun c hc => absurd hc List.not_mem_nil⟩
    | @cons id c ids cs hc _ ih =>
      have hid : c.id = id := id_of_builtAlone hc
      refine ⟨?_, fun d hd => ?_⟩
      · rw [List.map_cons, hid, ih.1]
      · rcases List.mem_cons.1 hd with rfl | hd
        · rw [hid]
          exact hc
        · exact ih.2 d hd
  · intro h
    obtain ⟨hids, halone⟩ := h
    rw [← hids, List.forall₂_map_left_iff, List.forall₂_same]
    exact halone

/-- The construction tells the kinds apart, builds all classes and puts them in order. -/
theorem build_eq_allBuiltWith {kinds : Kinds} (ht : t.Faithful context)
    (hkinds : Kinds.ofGraph.run g = .ok kinds) :
    Model.build g context m = allBuiltWith t g kinds m kinds.classIds >>= fun classes =>
      (Model.mk (kinds.enums.map (EnumFacts.namedIn context)) classes).arrange := by
  rw [allBuiltWith_eq ht, Model.build_eq, ModelFacts.ofGraph, Inquiry.run_bind, hkinds]
  show (ClassFacts.readAll kinds m kinds.classIds >>= fun classes =>
    pure (ModelFacts.mk kinds classes)).run g >>= _ = _
  rw [Inquiry.run_bind]
  cases (ClassFacts.readAll kinds m kinds.classIds).run g with
  | error e => rfl
  | ok facts => rfl

theorem isAbout_of_allBuiltWith_error {ids : List String} {e : ModelError}
    (ht : t.Faithful context) (h : allBuiltWith t g k m ids = .error e) :
    (∃ id ∈ ids, e.IsAbout id) ∨ e.IsRefusal g := by
  rw [allBuiltWith_eq ht] at h
  exact (ClassFacts.readAll_keeps ids).of_run_error (Outcomes.map_eq_error_iff.1 h)

/-- A graph whose error is a cycle between different classes has a record of each. -/
theorem exists_builtAlone_of_cycle {cycle : List String} {a b : String}
    (h : Model.build g context m = .error (.cyclicClassHierarchy cycle)) (ha : a ∈ cycle)
    (hb : b ∈ cycle) (hab : a ≠ b) :
    ∃ kinds, Kinds.ofGraph.run g = .ok kinds ∧
      ∀ id ∈ kinds.classIds, ∃ c, builtAlone context g kinds m id = .ok c := by
  have ht := NameTable.faithful_ofContext context
  cases hkinds : Kinds.ofGraph.run g with
  | error e =>
    have hkeeps : Kinds.ofGraph.Keeps (Question.InFootprint m) fun _ => False :=
      Kinds.ofGraph_keeps
    rcases hkeeps.of_run_error hkinds with hnone | hrefused
    · exact absurd hnone not_false
    · obtain ⟨q, cause, -, rfl⟩ := hrefused
      rw [Model.build_eq, ModelFacts.ofGraph, Inquiry.run_bind, hkinds] at h
      cases h
  | ok kinds =>
    refine ⟨kinds, rfl, fun id hid => ?_⟩
    rw [build_eq_allBuiltWith ht hkinds] at h
    cases hbuilt : allBuiltWith (.ofContext context) g kinds m kinds.classIds with
    | ok cs =>
      rw [allBuiltWith_eq_mapM ht, Outcomes.mapM_eq_ok_iff] at hbuilt
      obtain ⟨c, -, hc⟩ := Dataset.exists_of_forall₂ hbuilt hid
      exact ⟨c, hc⟩
    | error e =>
      -- The only cycle that is found in a class leads from the class to itself.
      rw [hbuilt] at h
      cases h
      rcases isAbout_of_allBuiltWith_error ht hbuilt with hown | hrefused
      · obtain ⟨id', -, hcycle⟩ := hown
        have honly : ∀ x ∈ cycle, x = id' := by
          rw [show cycle = [id', id'] from hcycle]
          simp
        exact absurd ((honly a ha).trans (honly b hb).symm) hab
      · obtain ⟨q, cause, -, hcause⟩ := hrefused
        cases hcause

theorem builtWith_eq_builtAlone_of_visited (ht : t.Faithful context) {visited : List String}
    {cs : List Class} {t' : NameTable}
    (h : ((buildAll k m visited).run t).run g = .ok (cs, t')) (id : String) :
    builtWith t' g k m id = builtAlone context g k m id := by
  refine builtWith_eq_builtAlone ?_ id
  rw [buildAll_splits k m visited t, Inquiry.run_bind] at h
  cases hread : (ClassFacts.readAll k m visited).run g with
  | error e =>
    rw [hread] at h
    cases h
  | ok facts =>
    rw [hread] at h
    obtain ⟨-, hfaithful⟩ := ClassFacts.allNamed_yields facts t ht
    have hleft : (ClassFacts.allNamed facts).run t = (cs, t') := Except.ok.inj h
    rw [hleft] at hfaithful
    exact hfaithful

/-- With a table of right answers all classes are built as each of them is built alone, or
the least one that cannot be built alone decides on the error.  No class learns from the table
which classes came before it, and a cycle between different classes is only found when there
is a record of every class. -/
theorem allBuiltWith_independent (context : String → String) (g : Source) (k : Kinds)
    (m : Metadata) (t : NameTable) (hk : k.classIds.Pairwise (· < ·)) (ht : t.Faithful context) :
    (∀ cs, allBuiltWith t g k m k.classIds = .ok cs ↔
      cs.map Class.id = k.classIds ∧ ∀ c ∈ cs, builtAlone context g k m c.id = .ok c) ∧
    (∀ e, allBuiltWith t g k m k.classIds = .error e ↔
      ∃ id ∈ k.classIds, builtAlone context g k m id = .error e ∧
        ∀ id' ∈ k.classIds, id' < id → ∃ c, builtAlone context g k m id' = .ok c) ∧
    (∀ visited cs t', ((buildAll k m visited).run t).run g = .ok (cs, t') →
      ∀ id, builtWith t' g k m id = builtAlone context g k m id) ∧
    (∀ cycle, Model.build g context m = .error (.cyclicClassHierarchy cycle) →
      ∀ a ∈ cycle, ∀ b ∈ cycle, a ≠ b →
        ∃ kinds, Kinds.ofGraph.run g = .ok kinds ∧
          ∀ id ∈ kinds.classIds, ∃ c, builtAlone context g kinds m id = .ok c) := by
  refine ⟨fun cs => allBuiltWith_eq_ok_iff ht, fun e => ?_, ?_, ?_⟩
  · rw [allBuiltWith_eq_mapM ht]
    exact Outcomes.mapM_eq_error_iff hk
  · intro visited cs t' h id
    exact builtWith_eq_builtAlone_of_visited ht h id
  · intro cycle h a ha b hb hab
    exact exists_builtAlone_of_cycle h ha hb hab

def usedTable : NameTable := ⟨fun t => t, [("urn:paint", "urn:paint"), ("urn:Car", "urn:Car")]⟩

def tangleKinds : Kinds where
  enums := [⟨"urn:Colour", [⟨"urn:red", "red", ""⟩], ""⟩]
  classIds := ["urn:Car", "urn:Truck", "urn:Vehicle"]

set_option maxRecDepth 10000 in
theorem builtAlone_tangle :
    usedTable.Faithful (fun t => t) ∧
      (∃ cs, allBuiltWith usedTable tangle.source tangleKinds
        (.ofNamespace defaultMetadataNamespace) tangleKinds.classIds = .ok cs ∧
        cs.map Class.id = ["urn:Car", "urn:Truck", "urn:Vehicle"] ∧
        ∀ c ∈ cs, builtAlone (fun t => t) tangle.source tangleKinds
          (.ofNamespace defaultMetadataNamespace) c.id = .ok c) ∧
      Model.build tangle.source (fun t => t) (.ofNamespace defaultMetadataNamespace) =
        .error (.cyclicClassHierarchy ["urn:Car", "urn:Truck", "urn:Vehicle", "urn:Car"]) ∧
      ∃ kinds, Kinds.ofGraph.run tangle.source = .ok kinds ∧
        ∀ id ∈ kinds.classIds, ∃ c, builtAlone (fun t => t) tangle.source kinds
          (.ofNamespace defaultMetadataNamespace) id = .ok c := by
  have hk : tangleKinds.classIds.Pairwise (· < ·) := by decide
  have ht : usedTable.Faithful (fun t => t) := ⟨rfl, by decide⟩
  have hbuilt : ∃ cs, allBuiltWith usedTable tangle.source tangleKinds
      (.ofNamespace defaultMetadataNamespace) tangleKinds.classIds = .ok cs := ⟨_, rfl⟩
  have hcycle : Model.build tangle.source (fun t => t) (.ofNamespace defaultMetadataNamespace) =
      .error (.cyclicClassHierarchy ["urn:Car", "urn:Truck", "urn:Vehicle", "urn:Car"]) := by rfl
  obtain ⟨hrecords, -, -, hlast⟩ := allBuiltWith_independent (fun t => t) tangle.source
    tangleKinds (.ofNamespace defaultMetadataNamespace) usedTable hk ht
  obtain ⟨cs, hcs⟩ := hbuilt
  obtain ⟨hids, halone⟩ := (hrecords cs).1 hcs
  refine ⟨ht, ⟨cs, hcs, hids, halone⟩, hcycle, ?_⟩
  exact hlast _ hcycle "urn:Car" (by decide) "urn:Truck" (by decide) (by decide)

end Class
end OntologyModel

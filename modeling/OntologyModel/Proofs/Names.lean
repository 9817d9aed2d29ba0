/-
Names depend on the context alone.

The table of short names is filled while a model is named, and which entries it has
depends on what was named before.  No name does: as long as every entry of the table is
the answer of the context, each name is a function of the context and of what is named.
`draft` is that function on all that was read of a graph, and `build_eq` takes the table
out of the construction.
-/
import OntologyModel.Model.Construction
import OntologyModel.Proofs.Ascending
import OntologyModel.Proofs.Naming

namespace OntologyModel

variable {context : String → String}

/-! ## Tables -/

namespace NameTable

/-- Every entry of the table is the answer of the context. -/
structure Faithful (context : String → String) (t : NameTable) : Prop where
  asks : t.context = context
  known : ∀ e ∈ t.known, e.2 = context e.1

variable {t : NameTable}

theorem faithful_ofContext (context : String → String) : (ofContext context).Faithful context :=
  ⟨rfl, fun _ he => absurd he List.not_mem_nil⟩

theorem Faithful.eq_of_lookup (h : t.Faithful context) {id short : String}
    (hlookup : t.known.lookup id = some short) : short = context id := by
  obtain ⟨l, l', hl, -⟩ := List.lookup_eq_some_iff.1 hlookup
  exact h.known (id, short) (by rw [hl]; simp)

theorem Faithful.lookup (h : t.Faithful context) (id : String) :
    (t.lookup id).1 = context id ∧ (t.lookup id).2.Faithful context := by
  rw [NameTable.lookup]
  cases hlookup : t.known.lookup id with
  | some short => exact ⟨h.eq_of_lookup hlookup, h⟩
  | none =>
    refine ⟨congrFun h.asks id, h.asks, fun e he => ?_⟩
    rcases List.mem_append.1 he with he | he
    · exact h.known e he
    · rw [List.mem_singleton.1 he]
      exact congrFun h.asks id

end NameTable

namespace Naming

variable {α β : Type} {a : α} {b : β}

/-- A naming has one result for all faithful tables, and leaves a faithful table. -/
def Yields (context : String → String) (x : Naming α) (a : α) : Prop :=
  ∀ t : NameTable, t.Faithful context → (x.run t).1 = a ∧ (x.run t).2.Faithful context

theorem yields_pure (a : α) : Yields context (pure a) a := fun _ ht => ⟨rfl, ht⟩

theorem Yields.bind {x : Naming α} {k : α → Naming β} (hx : Yields context x a)
    (hk : Yields context (k a) b) : Yields context (x >>= k) b := by
  intro t ht
  obtain ⟨hvalue, htable⟩ := hx t ht
  show ((k (x.run t).1).run (x.run t).2).1 = b ∧ _
  rw [← hvalue] at hk
  exact hk _ htable

theorem compact_yields (id : String) : Yields context (compact id) (context id) :=
  fun _ ht => ht.lookup id

def compactOrIn (context : String → String) (id fallback : String) : String :=
  if context id = id then fallback else context id

theorem compactOr_yields (id fallback : String) :
    Yields context (compactOr id fallback) (compactOrIn context id fallback) :=
  (compact_yields id).bind (yields_pure _)

theorem className_yields (id : String) :
    Yields context (className id) (withoutColons (context id)) :=
  (compact_yields id).bind (yields_pure _)

end Naming

open Naming (Yields yields_pure compactOrIn withoutColons)

/-! ## Properties -/

namespace PropertyFacts

def nameIn (context : String → String) (classId : String) (f : PropertyFacts) : String :=
  f.givenName.getD (compactOrIn context f.path (Text.removeCommonPrefix f.path [classId]))

def namedIn (context : String → String) (classId : String) (f : PropertyFacts) : Property :=
  f.withName (f.nameIn context classId)

def orderedIn (context : String → String) (classId : String) (fs : List PropertyFacts) :
    List Property :=
  Text.sortStable Property.before (fs.map (namedIn context classId))

theorem name_yields (classId : String) (f : PropertyFacts) :
    Yields context (f.name classId) (f.nameIn context classId) := by
  rw [name, nameIn]
  cases f.givenName with
  | some n => exact yields_pure n
  | none => exact Naming.compactOr_yields _ _

theorem named_yields (classId : String) (f : PropertyFacts) :
    Yields context (f.named classId) (f.namedIn context classId) :=
  (name_yields classId f).bind (yields_pure _)

theorem allNamed_yields (classId : String) (fs : List PropertyFacts) :
    Yields context (allNamed classId fs) (fs.map (namedIn context classId)) := by
  induction fs with
  | nil => exact yields_pure []
  | cons f fs ih => exact (named_yields classId f).bind (ih.bind (yields_pure _))

theorem ordered_yields (classId : String) (fs : List PropertyFacts) :
    Yields context (ordered classId fs) (orderedIn context classId fs) :=
  (allNamed_yields classId fs).bind (yields_pure _)

end PropertyFacts

/-! ## Enumerations and classes -/

namespace EnumFacts

def namedIn (context : String → String) (e : EnumFacts) : Enum :=
  ⟨e.id, withoutColons (context e.id), e.values, e.comment⟩

theorem allNamed_yields (es : List EnumFacts) :
    Yields context (allNamed es) (es.map (namedIn context)) := by
  induction es with
  | nil => exact yields_pure []
  | cons e es ih =>
    have hnamed : Yields context e.named (e.namedIn context) :=
      (Naming.className_yields e.id).bind (yields_pure _)
    exact hnamed.bind (ih.bind (yields_pure _))

end EnumFacts

namespace ClassFacts

def namedIn (context : String → String) (c : ClassFacts) : Class :=
  ⟨c.id, withoutColons (context c.id), c.parentIds, [],
    PropertyFacts.orderedIn context c.id c.properties, c.comment, c.idProperty, c.refable⟩

theorem named_yields (c : ClassFacts) : Yields context c.named (c.namedIn context) :=
  (PropertyFacts.ordered_yields c.id c.properties).bind
    ((Naming.className_yields c.id).bind (yields_pure _))

theorem allNamed_yields (cs : List ClassFacts) :
    Yields context (allNamed cs) (cs.map (namedIn context)) := by
  induction cs with
  | nil => exact yields_pure []
  | cons c cs ih => exact (named_yields c).bind (ih.bind (yields_pure _))

end ClassFacts

namespace ModelFacts

def draft (context : String → String) (f : ModelFacts) : Model :=
  ⟨f.kinds.enums.map (EnumFacts.namedIn context), f.classes.map (ClassFacts.namedIn context)⟩

theorem named_yields (f : ModelFacts) : Yields context f.named (f.draft context) :=
  (EnumFacts.allNamed_yields f.kinds.enums).bind
    ((ClassFacts.allNamed_yields f.classes).bind (yields_pure _))

end ModelFacts

/-! ## The construction without a table -/

/-- A model is the arranged draft of what was read. -/
theorem Model.build_eq (g : Source) (context : String → String) (metadata : Metadata) :
    build g context metadata =
      (ModelFacts.ofGraph metadata).run g >>= fun facts => (facts.draft context).arrange := by
  rw [build, construction, Inquiry.run_bind]
  refine congrArg ((ModelFacts.ofGraph metadata).run g >>= ·) (funext fun facts => ?_)
  have hdraft := (facts.named_yields (.ofContext context)
    (NameTable.faithful_ofContext context)).1
  rw [← hdraft]
  cases facts.named.run (.ofContext context) with
  | mk draft names =>
    dsimp only
    cases draft.arrange with
    | error e => rfl
    | ok model => rfl

end OntologyModel

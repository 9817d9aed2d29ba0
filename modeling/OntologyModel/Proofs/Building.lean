/-
Classes that are named while they are read.

The construction reads all classes before it names any of them.  A builder that gives each
property its name as soon as the shape is known, and each class its name before the comment
is read, shares one table of short names between all of them and looks quite different.
But naming asks the graph nothing and cannot fail, so it may be put off to the end: the
builder asks the same questions, finds the same things, ends in the same way and leaves the
same table.
-/
import OntologyModel.Model.Construction

namespace OntologyModel

open Vocabulary

/-! ## Inquiries with a table -/

/-- Inquiries that look up short names in a table on the way. -/
abbrev Building := StateT NameTable Inquiry

namespace Building

variable {α β γ : Type}

def asking (x : Inquiry α) : Building α := fun t => x >>= fun a => pure (a, t)

def naming (x : Naming α) : Building α := fun t => pure (x.run t)

theorem run_asking_bind (x : Inquiry α) (k : α → Building β) (t : NameTable) :
    (asking x >>= k).run t = x >>= fun a => (k a).run t := by
  show (x >>= fun a => pure (a, t)) >>= (fun p => (k p.1).run p.2) = _
  rw [bind_assoc]
  rfl

theorem run_naming_bind (x : Naming α) (k : α → Building β) (t : NameTable) :
    (naming x >>= k).run t = (k (x.run t).1).run (x.run t).2 := rfl

theorem run_pure (a : α) (t : NameTable) : (pure a : Building α).run t = pure (a, t) := rfl

/-- Building is reading first and naming what was read afterwards. -/
def Splits (x : Building β) (facts : Inquiry α) (name : α → Naming β) : Prop :=
  ∀ t, x.run t = facts >>= fun a => pure ((name a).run t)

theorem Splits.run_bind {x : Building β} {facts : Inquiry α} {name : α → Naming β}
    (h : x.Splits facts name) (k : β → Building γ) (t : NameTable) :
    (x >>= k).run t = facts >>= fun a => (k ((name a).run t).1).run ((name a).run t).2 := by
  show x.run t >>= (fun p => (k p.1).run p.2) = _
  rw [h t, bind_assoc]
  rfl

end Building

open Building (asking naming run_asking_bind run_naming_bind run_pure)

/-! ## Properties -/

namespace Shape

def nameFor (classId path : String) : Option String → Naming String
  | some given => return given
  | none => Naming.compactOr path (Text.removeCommonPrefix path [classId])

def build (k : Kinds) (classId : String) (shape : Node) : Building Property := do
  match ← asking (Inquiry.value shape shPath) with
  | some (.iri path) =>
    let given ← asking (Inquiry.value shape shName)
    let name ← naming (nameFor classId path (given.map Node.text))
    let range ← asking (range k classId shape path)
    asking (Inquiry.found (.resolvedProperty classId path range))
    let comment ← asking (Inquiry.textOrEmpty (.iri path) rdfsComment)
    let minCount ← asking (count classId shape path shMinCount)
    let maxCount ← asking (count classId shape path shMaxCount)
    return ⟨path, name, comment, minCount, maxCount, range⟩
  | _ => asking (.failure (.missingPropertyPath classId shape.display))

def buildEach (k : Kinds) (classId : String) : List Node → Building (List Property)
  | [] => return []
  | shape :: rest => do
    let p ← build k classId shape
    return p :: (← buildEach k classId rest)

def buildAll (k : Kinds) (classId : String) : Building (List Property) := do
  let shapes ← asking (Inquiry.objects (.iri classId) shProperty)
  return Text.sortStable Property.before (← buildEach k classId shapes)

theorem named_eq (classId : String) (f : PropertyFacts) (t : NameTable) :
    (f.named classId).run t =
      (⟨f.path, ((nameFor classId f.path f.givenName).run t).1, f.comment, f.minCount, f.maxCount,
        f.range⟩, ((nameFor classId f.path f.givenName).run t).2) := by
  rw [PropertyFacts.named, PropertyFacts.name]
  cases f.givenName <;> rfl

theorem build_splits (k : Kinds) (classId : String) (shape : Node) :
    (build k classId shape).Splits (property k classId shape) (PropertyFacts.named classId) := by
  intro t
  rw [build, property, run_asking_bind, bind_assoc]
  refine congrArg (_ >>= ·) (funext fun v => ?_)
  match v with
  | some (.iri path) =>
    simp only [run_asking_bind, run_naming_bind, run_pure, bind_assoc, pure_bind, named_eq]
  | none => rfl
  | some (.blank _) => rfl
  | some (.literal _) => rfl

theorem buildEach_splits (k : Kinds) (classId : String) (shapes : List Node) :
    (buildEach k classId shapes).Splits (propertiesOf k classId shapes)
      (PropertyFacts.allNamed classId) := by
  induction shapes with
  | nil => exact fun _ => rfl
  | cons shape rest ih =>
    intro t
    rw [buildEach, propertiesOf, (build_splits k classId shape).run_bind, bind_assoc]
    refine congrArg (_ >>= ·) (funext fun f => ?_)
    rw [ih.run_bind, bind_assoc]
    rfl

theorem buildAll_splits (k : Kinds) (classId : String) :
    (buildAll k classId).Splits (properties k classId) (PropertyFacts.ordered classId) := by
  intro t
  rw [buildAll, properties, run_asking_bind, bind_assoc]
  refine congrArg (_ >>= ·) (funext fun shapes => ?_)
  exact (buildEach_splits k classId shapes).run_bind _ t

end Shape

/-! ## Classes -/

namespace Class

def build (k : Kinds) (m : Metadata) (classId : String) : Building Class := do
  let refable ← asking (ClassFacts.readRefable m classId)
  let idProperty ← asking (Inquiry.value (.iri classId) m.idPropertyName)
  let parentIds ← asking (ClassFacts.readParents k classId)
  let properties ← Shape.buildAll k classId
  let className ← naming (Naming.className classId)
  let comment ← asking (Inquiry.textOrEmpty (.iri classId) rdfsComment)
  return ⟨classId, className, parentIds, [], properties, comment, idProperty.map Node.text, refable⟩

/-- The classes of some ids, built one after the other with one table. -/
def buildAll (k : Kinds) (m : Metadata) : List String → Building (List Class)
  | [] => return []
  | classId :: rest => do
    let c ← build k m classId
    return c :: (← buildAll k m rest)

theorem build_splits (k : Kinds) (m : Metadata) (classId : String) :
    (build k m classId).Splits (ClassFacts.read k m classId) ClassFacts.named := by
  intro t
  rw [build, ClassFacts.read]
  simp only [run_asking_bind, (Shape.buildAll_splits k classId).run_bind, run_naming_bind, run_pure,
    bind_assoc, pure_bind]
  rfl

theorem buildAll_splits (k : Kinds) (m : Metadata) (ids : List String) :
    (buildAll k m ids).Splits (ClassFacts.readAll k m ids) ClassFacts.allNamed := by
  induction ids with
  | nil => exact fun _ => rfl
  | cons classId rest ih =>
    intro t
    rw [buildAll, ClassFacts.readAll, (build_splits k m classId).run_bind, bind_assoc]
    refine congrArg (_ >>= ·) (funext fun c => ?_)
    rw [ih.run_bind, bind_assoc]
    rfl

end Class

/-! ## Models -/

namespace Model

/-- The enumerations and classes of a graph, each class named while it is read. -/
def buildDraft (metadata : Metadata) : Building Model := do
  let kinds ← asking Kinds.ofGraph
  let enums ← naming (EnumFacts.allNamed kinds.enums)
  let classes ← Class.buildAll kinds metadata kinds.classIds
  return ⟨enums, classes⟩

theorem buildDraft_splits (metadata : Metadata) :
    (buildDraft metadata).Splits (ModelFacts.ofGraph metadata) ModelFacts.named := by
  intro t
  rw [buildDraft, ModelFacts.ofGraph, run_asking_bind, bind_assoc]
  refine congrArg (_ >>= ·) (funext fun kinds => ?_)
  rw [run_naming_bind, (Class.buildAll_splits kinds metadata kinds.classIds).run_bind, bind_assoc]
  rfl

/-- Naming each class while it is read makes no difference to the construction. -/
theorem construction_eq_buildDraft (context : String → String) (metadata : Metadata) :
    construction context metadata = (buildDraft metadata).run (.ofContext context) >>= fun named =>
      match named.1.arrange with
      | .error e => .failure e
      | .ok model => do
        Inquiry.found (.modelConstructed model.enums.length model.classes.length named.2.size)
        return model := by
  rw [construction, buildDraft_splits metadata (.ofContext context), bind_assoc]
  rfl

end Model
end OntologyModel

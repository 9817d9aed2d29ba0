/-
A context decides names and nothing else.

What is read of a graph does not depend on the context, and what is arranged does not
depend on names, except that properties of one path stand in the order of their names.
So two contexts give the same error, or models that agree in all but the names of
classes, enumerations and properties and the order of properties with one path.
-/
import OntologyModel.Proofs.Arrangement
import OntologyModel.Proofs.Properties

namespace OntologyModel

/-! ## Models without names -/

def Enum.unnamed (e : Enum) : Enum := { e with className := "" }

def Property.unnamed (p : Property) : Property := { p with name := "" }

structure Class.SameButNames (c c' : Class) : Prop where
  id : c.id = c'.id
  parentIds : c.parentIds = c'.parentIds
  derivedIds : c.derivedIds = c'.derivedIds
  comment : c.comment = c'.comment
  idProperty : c.idProperty = c'.idProperty
  refable : c.refable = c'.refable
  paths : c.properties.map Property.path = c'.properties.map Property.path
  properties : (c.properties.map Property.unnamed).Perm (c'.properties.map Property.unnamed)

structure Model.SameButNames (m m' : Model) : Prop where
  enums : m.enums.map Enum.unnamed = m'.enums.map Enum.unnamed
  classes : List.Forall₂ Class.SameButNames m.classes m'.classes

theorem Class.coupling_sameButNames : Class.Coupling Class.SameButNames where
  id h := h.id
  parentIds h := h.parentIds
  link h _ := { h with derivedIds := rfl }

/-! ## Drafts of two contexts -/

variable (context context' : String → String)

theorem PropertyFacts.map_path_orderedIn (classId : String) (fs : List PropertyFacts) :
    (orderedIn context classId fs).map Property.path =
      (orderedIn context' classId fs).map Property.path := by
  refine Property.map_path_sortStable_eq ?_
  rw [List.map_map, List.map_map]
  exact List.Perm.refl _

theorem PropertyFacts.unnamed_orderedIn (classId : String) (fs : List PropertyFacts) :
    ((orderedIn context classId fs).map Property.unnamed).Perm
      ((orderedIn context' classId fs).map Property.unnamed) := by
  have hnamed : (fs.map (namedIn context classId)).map Property.unnamed =
      (fs.map (namedIn context' classId)).map Property.unnamed := by
    rw [List.map_map, List.map_map]
    rfl
  have hperm := (perm_orderedIn context classId fs).map Property.unnamed
  rw [hnamed] at hperm
  exact hperm.trans ((perm_orderedIn context' classId fs).map Property.unnamed).symm

theorem ClassFacts.sameButNames_namedIn (c : ClassFacts) :
    (c.namedIn context).SameButNames (c.namedIn context') :=
  ⟨rfl, rfl, rfl, rfl, rfl, rfl,
    PropertyFacts.map_path_orderedIn context context' c.id c.properties,
    PropertyFacts.unnamed_orderedIn context context' c.id c.properties⟩

theorem ModelFacts.sameButNames_draft (f : ModelFacts) :
    (f.draft context).SameButNames (f.draft context') where
  enums := by
    show (f.kinds.enums.map _).map _ = (f.kinds.enums.map _).map _
    rw [List.map_map, List.map_map]
    rfl
  classes := by
    refine List.forall₂_map_left_iff.2 (List.forall₂_map_right_iff.2 ?_)
    exact List.forall₂_same.2 fun c _ => c.sameButNames_namedIn context context'

/-! ## Models of two contexts -/

/-- Two contexts give models that differ in names only, or the same error. -/
theorem Model.build_parallel_of_contexts (g : Source) (metadata : Metadata) :
    Parallel Eq Model.SameButNames (build g context metadata) (build g context' metadata) := by
  rw [build_eq, build_eq]
  refine Parallel.bind (R := Eq) (.of_self fun _ _ => rfl) fun f f' hf => ?_
  rw [← hf]
  have hdraft := f.sameButNames_draft context context'
  refine (arrange_parallel Class.coupling_sameButNames hdraft.classes).mono (fun _ _ he => he) ?_
  intro m m' hm
  refine ⟨?_, hm.2.2⟩
  rw [hm.1, hm.2.1]
  exact hdraft.enums

end OntologyModel

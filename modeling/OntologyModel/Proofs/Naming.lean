/-
Naming changes nothing but names.

Whatever the table of short names holds, a named property or class agrees with what
was read of it in everything else, and sorting the properties only moves them.
-/
import OntologyModel.Model.Description
import Mathlib.Data.List.Forall2

namespace OntologyModel

namespace Naming

variable {α β : Type} {Q : α → Prop} {R : β → Prop}

/-- A naming has a result with `Q`, whatever names are known before it. -/
def Gives (x : Naming α) (Q : α → Prop) : Prop := ∀ t, Q (x.run t).1

theorem gives_pure {a : α} (h : Q a) : Gives (pure a) Q := fun _ => h

theorem Gives.bind {x : Naming α} {k : α → Naming β} (hx : Gives x Q)
    (hk : ∀ a, Q a → Gives (k a) R) : Gives (x >>= k) R :=
  fun t => hk (x.run t).1 (hx t) (x.run t).2

theorem gives_true (x : Naming α) : Gives x fun _ => True := fun _ => trivial

end Naming

open Naming (Gives gives_pure gives_true)

namespace PropertyFacts

def withName (f : PropertyFacts) (name : String) : Property :=
  ⟨f.path, name, f.comment, f.minCount, f.maxCount, f.range⟩

theorem named_gives (classId : String) (f : PropertyFacts) :
    Gives (f.named classId) fun p => p = f.withName p.name :=
  (gives_true _).bind fun _ _ => gives_pure rfl

theorem allNamed_gives (classId : String) (fs : List PropertyFacts) :
    Gives (allNamed classId fs) (List.Forall₂ (fun f p => p = f.withName p.name) fs) := by
  induction fs with
  | nil => exact gives_pure .nil
  | cons f fs ih =>
    refine (named_gives classId f).bind fun p hp => ?_
    exact ih.bind fun ps hps => gives_pure (.cons hp hps)

theorem ordered_gives (classId : String) (fs : List PropertyFacts) :
    Gives (ordered classId fs) fun ps => ∃ qs, ps.Perm qs ∧
      List.Forall₂ (fun f p => p = f.withName p.name) fs qs :=
  (allNamed_gives classId fs).bind fun qs hqs =>
    gives_pure ⟨qs, Text.perm_sortStable Property.before qs, hqs⟩

end PropertyFacts

/-- A class of a model agrees with what was read of it, names and links apart. -/
structure Class.IsNamed (f : ClassFacts) (c : Class) : Prop where
  id : c.id = f.id
  parentIds : c.parentIds = f.parentIds
  properties : ∃ qs, c.properties.Perm qs ∧
    List.Forall₂ (fun f p => p = f.withName p.name) f.properties qs
  comment : c.comment = f.comment
  idProperty : c.idProperty = f.idProperty
  refable : c.refable = f.refable

namespace ClassFacts

theorem named_gives (f : ClassFacts) : Gives f.named (Class.IsNamed f) :=
  (PropertyFacts.ordered_gives f.id f.properties).bind fun _ hps =>
    (gives_true (Naming.className f.id)).bind fun _ _ =>
      gives_pure ⟨rfl, rfl, hps, rfl, rfl, rfl⟩

theorem allNamed_gives (fs : List ClassFacts) :
    Gives (allNamed fs) fun cs => cs.map Class.id = fs.map ClassFacts.id ∧
      ∀ c ∈ cs, ∃ f ∈ fs, c.IsNamed f := by
  induction fs with
  | nil => exact gives_pure ⟨rfl, fun c hc => absurd hc List.not_mem_nil⟩
  | cons f fs ih =>
    refine (named_gives f).bind fun c hc => ih.bind fun cs hcs => gives_pure ⟨?_, ?_⟩
    · rw [List.map_cons, List.map_cons, hcs.1, hc.id]
    · intro c' hc'
      rcases List.mem_cons.1 hc' with rfl | hc'
      · exact ⟨f, List.mem_cons_self, hc⟩
      · obtain ⟨f', hf', h⟩ := hcs.2 c' hc'
        exact ⟨f', List.mem_cons_of_mem f hf', h⟩

end ClassFacts

theorem EnumFacts.allNamed_gives (es : List EnumFacts) :
    Gives (allNamed es) fun es' => es'.map Enum.id = es.map EnumFacts.id := by
  induction es with
  | nil => exact gives_pure rfl
  | cons e es ih =>
    refine Gives.bind (Q := fun e' => e'.id = e.id) ?_ fun e' he' => ?_
    · exact (gives_true _).bind fun _ _ => gives_pure rfl
    · refine ih.bind fun es' hes' => gives_pure ?_
      rw [List.map_cons, List.map_cons, he', hes']

end OntologyModel

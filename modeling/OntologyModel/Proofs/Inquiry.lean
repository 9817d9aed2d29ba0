/-
What the end of an inquiry guarantees.

`Ends` joins a condition on the value that an inquiry reaches with one on the
error that stops it, over a source that may refuse questions.  A refusal is always
allowed for, so that only the errors of the inquiry itself are spoken of.
-/
import OntologyModel.Model.Inquiry
import OntologyModel.Proofs.Dataset

namespace OntologyModel

def ModelError.IsRefusal (g : Source) (e : ModelError) : Prop :=
  ∃ q cause, g.answer q = .error cause ∧ e = .graph cause

theorem ModelError.not_isRefusal_source (d : Dataset) (e : ModelError) : ¬e.IsRefusal d.source := by
  intro h
  obtain ⟨q, cause, hq, -⟩ := h
  cases hq

namespace Inquiry

variable {α β : Type} {g : Source} {d : Dataset} {Q : α → Prop} {R : β → Prop}
  {E F : ModelError → Prop}

/-- A value that is reached satisfies `Q`; an error satisfies `E` unless the source
refused a question. -/
def Ends (g : Source) (x : Inquiry α) (Q : α → Prop) (E : ModelError → Prop) : Prop :=
  match x.run g with
  | .ok a => Q a
  | .error e => E e ∨ e.IsRefusal g

theorem Ends.of_run_ok {x : Inquiry α} (h : x.Ends g Q E) {a : α} (ha : x.run g = .ok a) : Q a := by
  rw [Ends, ha] at h
  exact h

theorem Ends.of_run_error {x : Inquiry α} (h : x.Ends g Q E) {e : ModelError}
    (he : x.run g = .error e) : E e ∨ e.IsRefusal g := by
  rw [Ends, he] at h
  exact h

theorem Ends.mono {x : Inquiry α} {Q' : α → Prop} (h : x.Ends g Q E) (hQ : ∀ a, Q a → Q' a)
    (hE : ∀ e, E e → F e) : x.Ends g Q' F := by
  rw [Ends] at h ⊢
  cases hx : x.run g with
  | ok a =>
    rw [hx] at h
    exact hQ a h
  | error e =>
    rw [hx] at h
    exact h.imp_left (hE e)

theorem ends_pure {a : α} (h : Q a) : (pure a : Inquiry α).Ends g Q E := h

/-- Of any inquiry nothing is known but that it ends. -/
theorem ends_any {x : Inquiry α} : x.Ends g (fun _ => True) fun _ => True := by
  rw [Ends]
  cases x.run g with
  | ok a => trivial
  | error e => exact .inl trivial

theorem ends_failure {e : ModelError} (h : E e) : (failure e : Inquiry α).Ends g Q E := .inl h

theorem Ends.bind {x : Inquiry α} {k : α → Inquiry β} (hx : x.Ends g Q E)
    (hk : ∀ a, Q a → (k a).Ends g R E) : (x >>= k).Ends g R E := by
  rw [Ends] at hx ⊢
  rw [run_bind]
  cases h : x.run g with
  | ok a =>
    rw [h] at hx
    exact hk a hx
  | error e =>
    rw [h] at hx
    exact hx

theorem Ends.found {k : Unit → Inquiry β} {f : Finding} (hk : (k ()).Ends g R E) :
    (found f >>= k).Ends g R E := hk

/-! ## Questions -/

theorem ends_objects (hg : g.AnswersFrom d) (s : Node) (p : String) :
    (objects s p).Ends g (· = d.objects s p) E := by
  rw [Ends, objects, run]
  cases hq : g.answer (.objects s p) with
  | ok nodes => exact hg _ nodes hq
  | error cause => exact .inr ⟨_, cause, hq, rfl⟩

theorem ends_subjects (hg : g.AnswersFrom d) (p : String) (o : Node) :
    (subjects p o).Ends g (· = d.subjects p o) E := by
  rw [Ends, subjects, run]
  cases hq : g.answer (.subjects p o) with
  | ok nodes => exact hg _ nodes hq
  | error cause => exact .inr ⟨_, cause, hq, rfl⟩

theorem ends_asserts (hg : g.AnswersFrom d) (s : Node) (p : String) (o : Node) :
    (asserts s p o).Ends g (fun b => b = true ↔ d.Holds s p o) E := by
  refine (ends_objects hg s p).bind fun nodes hnodes => ends_pure ?_
  rw [List.contains_iff_mem, hnodes]
  exact Dataset.mem_objects

theorem ends_value (hg : g.AnswersFrom d) (s : Node) (p : String) :
    (value s p).Ends g (d.IsValue s p) E := by
  refine (ends_objects hg s p).bind fun nodes hnodes => ends_pure ?_
  rw [hnodes]
  exact d.isValue_head? s p

theorem ends_textOrEmpty (hg : g.AnswersFrom d) (s : Node) (p : String) :
    (textOrEmpty s p).Ends g (fun t => ∃ v, d.IsValue s p v ∧ t = (v.map Node.text).getD "") E :=
  (ends_value hg s p).bind fun v hv => ends_pure ⟨v, hv, rfl⟩

end Inquiry
end OntologyModel

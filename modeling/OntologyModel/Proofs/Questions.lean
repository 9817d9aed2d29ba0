/-
What an inquiry asks of a source is all that it learns from it.

The questions on the way of an inquiry decide where it ends: a source that answers
them in the same manner takes it to the same end, and one that refuses some of them
stops it at the first one that it refuses.  `AsksOnly` bounds the questions of an
inquiry over every source at once, by the predicates that they are on, and `Keeps` bounds
the errors of its own as well.
-/
import OntologyModel.Model.Inquiry
import Mathlib.Data.Set.Basic

namespace OntologyModel

/-! ## Sources that refuse -/

def GraphError.refused (predicate : String) : GraphError :=
  .unreadable "graph" ("refused " ++ predicate)

namespace Source

variable {g : Source} {F : Set String} [DecidablePred (· ∈ F)] {q : Question}

def refusingOn (g : Source) (F : Set String) [DecidablePred (· ∈ F)] : Source where
  answer q := if q.predicate ∈ F then .error (.refused q.predicate) else g.answer q

theorem answer_refusingOn_of_mem (hq : q.predicate ∈ F) :
    (g.refusingOn F).answer q = .error (.refused q.predicate) := if_pos hq

theorem answer_refusingOn_of_notMem (hq : q.predicate ∉ F) :
    (g.refusingOn F).answer q = g.answer q := if_neg hq

theorem refusing_eq_refusingOn (g : Source) (predicates : List String) :
    g.refusing predicates = g.refusingOn {p | predicates.contains p = true} := rfl

end Source

namespace Inquiry

variable {α β : Type} {g g' : Source} {x : Inquiry α} {k : α → Inquiry β}

/-! ## The questions asked of one source -/

theorem questions_ask (q : Question) (next : List Node → Inquiry α) {nodes : List Node}
    (h : g.answer q = .ok nodes) :
    (ask q next).questions g = q :: (next nodes).questions g := by
  rw [questions, h]

theorem run_ask (q : Question) (next : List Node → Inquiry α) {nodes : List Node}
    (h : g.answer q = .ok nodes) : (ask q next).run g = (next nodes).run g := by
  rw [run, h]

theorem run_ask_error (q : Question) (next : List Node → Inquiry α) {cause : GraphError}
    (h : g.answer q = .error cause) : (ask q next).run g = .error (.graph cause) := by
  rw [run, h]

/-- Where two sources give the same answers on the way, the way is the same. -/
theorem run_eq_of_answers (h : ∀ q ∈ x.questions g, g'.answer q = g.answer q) :
    x.run g' = x.run g := by
  induction x with
  | answer a => rfl
  | failure e => rfl
  | note f next ih => exact ih h
  | ask q next ih =>
    have hq : g'.answer q = g.answer q := h q (by rw [questions]; exact List.mem_cons_self)
    cases ha : g.answer q with
    | error cause => rw [run_ask_error q next ha, run_ask_error q next (hq.trans ha)]
    | ok nodes =>
      rw [run_ask q next ha, run_ask q next (hq.trans ha)]
      rw [questions_ask q next ha] at h
      exact ih nodes fun q' hq' => h q' (List.mem_cons_of_mem q hq')

/-- A refusal is never passed over: the first one ends the run. -/
theorem run_refusingOn_of_find? {F : Set String} [DecidablePred (· ∈ F)] {q : Question}
    (h : (x.questions g).find? (fun q => q.predicate ∈ F) = some q) :
    x.run (g.refusingOn F) = .error (.graph (.refused q.predicate)) := by
  induction x with
  | answer a => exact absurd h (by simp [questions])
  | failure e => exact absurd h (by simp [questions])
  | note f next ih => exact ih h
  | ask q' next ih =>
    rw [questions, List.find?_cons] at h
    by_cases hF : q'.predicate ∈ F
    · have heq : q' = q := by simpa [hF] using h
      rw [← heq]
      exact run_ask_error q' next (Source.answer_refusingOn_of_mem hF)
    · have hanswer := Source.answer_refusingOn_of_notMem (g := g) hF
      cases ha : g.answer q' with
      | error cause => simp [hF, ha] at h
      | ok nodes =>
        rw [run_ask q' next (hanswer.trans ha)]
        exact ih nodes (by simpa [hF, ha] using h)

theorem run_refusingOn_of_forall {F : Set String} [DecidablePred (· ∈ F)]
    (h : ∀ q ∈ x.questions g, q.predicate ∉ F) : x.run (g.refusingOn F) = x.run g :=
  run_eq_of_answers fun q hq => Source.answer_refusingOn_of_notMem (h q hq)

/-! ## The questions asked of any source, and the errors -/

def AsksOnly (predicates : List String) : Inquiry α → Prop
  | .answer _ => True
  | .failure _ => True
  | .ask q next => q.predicate ∈ predicates ∧ ∀ nodes, (next nodes).AsksOnly predicates
  | .note _ next => next.AsksOnly predicates

/-- Whatever the answers are, the questions that come up satisfy `Q` and the errors `E`. -/
def Keeps (Q : Question → Prop) (E : ModelError → Prop) : Inquiry α → Prop
  | .answer _ => True
  | .failure e => E e
  | .ask q next => Q q ∧ ∀ nodes, (next nodes).Keeps Q E
  | .note _ next => next.Keeps Q E

variable {ps : List String} {Q : Question → Prop} {E E' : ModelError → Prop}

theorem keeps_pure (a : α) : (pure a : Inquiry α).Keeps Q E := trivial

theorem keeps_failure {e : ModelError} (h : E e) : (failure e : Inquiry α).Keeps Q E := h

theorem Keeps.bind (hx : x.Keeps Q E) (hk : ∀ a, (k a).Keeps Q E) : (x >>= k).Keeps Q E := by
  induction x with
  | answer a => exact hk a
  | failure e => exact hx
  | ask q next ih => exact ⟨hx.1, fun nodes => ih nodes (hx.2 nodes)⟩
  | note f next ih => exact ih hx

theorem Keeps.found (f : Finding) {k : Unit → Inquiry β} (hk : (k ()).Keeps Q E) :
    (found f >>= k).Keeps Q E := hk

theorem Keeps.mono (hx : x.Keeps Q E) (hE : ∀ e, E e → E' e) : x.Keeps Q E' := by
  induction x with
  | answer a => trivial
  | failure e => exact hE e hx
  | ask q next ih => exact ⟨hx.1, fun nodes => ih nodes (hx.2 nodes)⟩
  | note f next ih => exact ih hx

theorem keeps_objects {s : Node} {p : String} (hq : Q (.objects s p)) : (objects s p).Keeps Q E :=
  ⟨hq, fun _ => trivial⟩

theorem keeps_subjects {p : String} {o : Node} (hq : Q (.subjects p o)) :
    (subjects p o).Keeps Q E := ⟨hq, fun _ => trivial⟩

theorem keeps_asserts {s : Node} {p : String} (hq : Q (.objects s p)) (o : Node) :
    (asserts s p o).Keeps Q E := (keeps_objects hq).bind fun _ => keeps_pure _

theorem keeps_value {s : Node} {p : String} (hq : Q (.objects s p)) : (value s p).Keeps Q E :=
  (keeps_objects hq).bind fun _ => keeps_pure _

theorem keeps_textOrEmpty {s : Node} {p : String} (hq : Q (.objects s p)) :
    (textOrEmpty s p).Keeps Q E := (keeps_value hq).bind fun _ => keeps_pure _

theorem Keeps.asksOnly (hx : x.Keeps (fun q => q.predicate ∈ ps) E) : x.AsksOnly ps := by
  induction x with
  | answer a => trivial
  | failure e => trivial
  | ask q next ih => exact ⟨hx.1, fun nodes => ih nodes (hx.2 nodes)⟩
  | note f next ih => exact ih hx

/-- A run that fails meets an error of the inquiry, or else a question that the source does
not answer. -/
theorem Keeps.of_run_error (hx : x.Keeps Q E) {e : ModelError} (h : x.run g = .error e) :
    E e ∨ ∃ q cause, g.answer q = .error cause ∧ e = .graph cause := by
  induction x with
  | answer a => cases h
  | failure e' =>
    cases h
    exact .inl hx
  | note f next ih => exact ih hx h
  | ask q next ih =>
    cases ha : g.answer q with
    | ok nodes =>
      rw [run_ask q next ha] at h
      exact ih nodes (hx.2 nodes) h
    | error cause =>
      rw [run_ask_error q next ha] at h
      cases h
      exact .inr ⟨q, cause, ha, rfl⟩

/-- An inquiry without errors of its own comes to a value if all its questions are answered. -/
theorem Keeps.exists_run_ok (hx : x.Keeps Q fun _ => False)
    (h : ∀ q ∈ x.questions g, ∃ nodes, g.answer q = .ok nodes) : ∃ a, x.run g = .ok a := by
  induction x with
  | answer a => exact ⟨a, rfl⟩
  | failure e => exact absurd hx not_false
  | note f next ih => exact ih hx h
  | ask q next ih =>
    obtain ⟨nodes, ha⟩ := h q (by rw [questions]; exact List.mem_cons_self)
    rw [run_ask q next ha]
    rw [questions_ask q next ha] at h
    exact ih nodes (hx.2 nodes) fun q' hq' => h q' (List.mem_cons_of_mem q hq')

theorem AsksOnly.mem_of_questions (hx : x.AsksOnly ps) {q : Question} (hq : q ∈ x.questions g) :
    q.predicate ∈ ps := by
  induction x with
  | answer a => exact absurd hq List.not_mem_nil
  | failure e => exact absurd hq List.not_mem_nil
  | note f next ih => exact ih hx hq
  | ask q' next ih =>
    rw [questions] at hq
    rcases List.mem_cons.1 hq with rfl | hq
    · exact hx.1
    · cases ha : g.answer q' with
      | error cause => simp [ha] at hq
      | ok nodes =>
        rw [ha] at hq
        exact ih nodes (hx.2 nodes) hq

/-- Two sources that agree on the predicates of an inquiry take it to the same end. -/
theorem AsksOnly.run_eq (hx : x.AsksOnly ps)
    (h : ∀ q : Question, q.predicate ∈ ps → g'.answer q = g.answer q) : x.run g' = x.run g :=
  run_eq_of_answers fun q hq => h q (hx.mem_of_questions hq)

end Inquiry
end OntologyModel

/-
How a context changes.

A context is changed by registering a prefix, by choosing a vocabulary and by merging
another context into it.  Each of these only ever adds bindings behind those that are
there, so that a prefix keeps its namespace and its place through any run of changes,
those that fail included.  A merge stops at the first binding that conflicts, and what it
took over before that stays.
-/
import OntologyModel.Context.Namespaces
import Mathlib.Data.List.Nodup

namespace OntologyModel
namespace Namespaces

variable {ns ns' other : Namespaces} {name iri bound : String} {b : Binding} {bs cs : List Binding}

/-! ## Bindings -/

theorem mem_of_get? (h : ns.get? name = some iri) : ⟨name, iri⟩ ∈ ns.bindings := by
  obtain ⟨b, hb, rfl⟩ := Option.map_eq_some_iff.1 h
  have hname : b.name = name := by simpa using List.find?_some hb
  rw [← hname]
  exact List.mem_of_find?_eq_some hb

/-- A prefix is bound once, so that looking it up finds any binding of it. -/
theorem get?_eq_some_iff : ns.get? name = some iri ↔ ⟨name, iri⟩ ∈ ns.bindings := by
  refine ⟨mem_of_get?, fun h => ?_⟩
  cases hget : ns.get? name with
  | none =>
    rw [get?, Option.map_eq_none_iff, List.find?_eq_none] at hget
    have hother := hget _ h
    simp at hother
  | some bound =>
    have hsame := List.inj_on_of_nodup_map ns.nodup (mem_of_get? hget) h rfl
    rw [(Binding.mk.inj hsame).2]

theorem get?_append (h : ns'.bindings = ns.bindings ++ bs) (name : String) :
    ns'.get? name = (ns.get? name).or ((bs.find? fun b => b.name = name).map Binding.iri) := by
  rw [get?, get?, h, List.find?_append]
  cases ns.bindings.find? fun b => b.name = name <;> rfl

def isNew (ns : Namespaces) (b : Binding) : Bool := (ns.get? b.name).isNone

def Conflicts (ns : Namespaces) (b : Binding) : Prop :=
  ∃ bound, ns.get? b.name = some bound ∧ bound ≠ b.iri

/-! ## Registration -/

theorem register_of_unbound (h : ns.get? name = none) (iri : String) :
    ∃ ns', ns.register name iri = .ok ns' ∧ ns'.bindings = ns.bindings ++ [⟨name, iri⟩] ∧
      ns'.vocabulary = ns.vocabulary := by
  rw [get?, Option.map_eq_none_iff] at h
  unfold register
  split
  · rename_i b hb
    rw [h] at hb
    cases hb
  · exact ⟨_, rfl, rfl, rfl⟩

theorem register_of_bound (h : ns.get? name = some bound) (iri : String) :
    ns.register name iri =
      if bound = iri then .ok ns else .error (.prefixCollision name bound iri) := by
  obtain ⟨b, hb, rfl⟩ := Option.map_eq_some_iff.1 h
  unfold register
  split
  · rename_i b' hb'
    rw [hb] at hb'
    cases hb'
    rfl
  · rename_i hnone
    rw [hb] at hnone
    cases hnone

theorem registerAll_append (h : (ns.registerAll bs).error = none) :
    ns.registerAll (bs ++ cs) = (ns.registerAll bs).context.registerAll cs := by
  induction bs generalizing ns with
  | nil => rfl
  | cons b bs ih =>
    rw [List.cons_append, registerAll, registerAll]
    rw [registerAll] at h
    cases hreg : ns.register b.name b.iri with
    | ok ns' =>
      rw [hreg] at h
      exact ih h
    | error e =>
      rw [hreg] at h
      cases h

/-- Bindings without a conflict are all taken over, those of new prefixes at the end. -/
theorem registerAll_of_forall_not_conflicts (hbs : (bs.map Binding.name).Nodup)
    (h : ∀ b ∈ bs, ¬ns.Conflicts b) :
    (ns.registerAll bs).error = none ∧
      (ns.registerAll bs).context.bindings = ns.bindings ++ bs.filter ns.isNew ∧
      (ns.registerAll bs).context.vocabulary = ns.vocabulary := by
  induction bs generalizing ns with
  | nil => exact ⟨rfl, (List.append_nil _).symm, rfl⟩
  | cons b bs ih =>
    rw [List.map_cons, List.nodup_cons] at hbs
    obtain ⟨hb, hrest⟩ := List.forall_mem_cons.1 h
    cases hget : ns.get? b.name with
    | some bound =>
      have hsame : bound = b.iri := by
        by_contra hne
        exact hb ⟨bound, hget, hne⟩
      have hreg : ns.registerAll (b :: bs) = ns.registerAll bs := by
        rw [registerAll, register_of_bound hget, if_pos hsame]
      have hnew : (b :: bs).filter ns.isNew = bs.filter ns.isNew := by
        simp [isNew, hget]
      rw [hreg, hnew]
      exact ih hbs.2 hrest
    | none =>
      obtain ⟨ns', hns', hbindings, hvocabulary⟩ := register_of_unbound hget b.iri
      have hreg : ns.registerAll (b :: bs) = ns'.registerAll bs := by
        rw [registerAll, hns']
      -- The prefixes that are still to come are other ones, and bound as before.
      have hget' : ∀ c ∈ bs, ns'.get? c.name = ns.get? c.name := by
        intro c hc
        have hne : b.name ≠ c.name := by
          intro heq
          exact hbs.1 (List.mem_map.2 ⟨c, hc, heq.symm⟩)
        rw [get?_append hbindings]
        simp [hne]
      have hrest' : ∀ c ∈ bs, ¬ns'.Conflicts c := by
        intro c hc hconflict
        rw [Conflicts, hget' c hc] at hconflict
        exact hrest c hc hconflict
      have hfilter : bs.filter ns'.isNew = bs.filter ns.isNew := by
        refine List.filter_congr fun c hc => ?_
        rw [isNew, isNew, hget' c hc]
      have hnew : (b :: bs).filter ns.isNew = b :: bs.filter ns.isNew := by
        simp [isNew, hget]
      obtain ⟨herror, htaken, hkept⟩ := ih hbs.2 hrest'
      rw [hreg, hnew]
      refine ⟨herror, ?_, hkept.trans hvocabulary⟩
      rw [htaken, hbindings, hfilter, List.append_assoc]
      rfl

/-- The first binding with a conflict stops the registration. -/
theorem registerAll_of_conflict (hbs : (bs.map Binding.name).Nodup)
    (h : ∀ c ∈ bs, ¬ns.Conflicts c) (hget : ns.get? b.name = some bound) (hne : bound ≠ b.iri)
    (cs : List Binding) :
    ns.registerAll (bs ++ b :: cs) =
      ⟨(ns.registerAll bs).context, some (.prefixCollision b.name bound b.iri)⟩ := by
  obtain ⟨herror, htaken, -⟩ := registerAll_of_forall_not_conflicts hbs h
  have hbound : (ns.registerAll bs).context.get? b.name = some bound := by
    rw [get?_append htaken, hget]
    rfl
  rw [registerAll_append herror, registerAll, register_of_bound hbound, if_neg hne]

theorem nodup_names_singleton (b : Binding) : ([b].map Binding.name).Nodup :=
  List.nodup_singleton b.name

/-- Registration either meets no conflict, or stops at the first one. -/
theorem registerAll_cases (ns : Namespaces) (hbs : (bs.map Binding.name).Nodup) :
    ((∀ b ∈ bs, ¬ns.Conflicts b) ∧ (ns.registerAll bs).error = none ∧
      (ns.registerAll bs).context.bindings = ns.bindings ++ bs.filter ns.isNew ∧
      (ns.registerAll bs).context.vocabulary = ns.vocabulary) ∨
    (∃ before b after bound, bs = before ++ b :: after ∧ (∀ c ∈ before, ¬ns.Conflicts c) ∧
      ns.get? b.name = some bound ∧ bound ≠ b.iri ∧
      (ns.registerAll bs).error = some (.prefixCollision b.name bound b.iri) ∧
      (ns.registerAll bs).context.bindings = ns.bindings ++ before.filter ns.isNew ∧
      (ns.registerAll bs).context.vocabulary = ns.vocabulary) := by
  classical
  cases hfind : bs.find? fun b => decide (ns.Conflicts b) with
  | none =>
    have hnone : ∀ b ∈ bs, ¬ns.Conflicts b := by
      simpa using hfind
    exact .inl ⟨hnone, registerAll_of_forall_not_conflicts hbs hnone⟩
  | some b =>
    obtain ⟨hconflict, before, after, rfl, hbefore⟩ := List.find?_eq_some_iff_append.1 hfind
    obtain ⟨bound, hget, hne⟩ := of_decide_eq_true hconflict
    have hnone : ∀ c ∈ before, ¬ns.Conflicts c := by
      simpa using hbefore
    have hnodup : (before.map Binding.name).Nodup := by
      rw [List.map_append] at hbs
      exact hbs.of_append_left
    obtain ⟨-, htaken, hkept⟩ := registerAll_of_forall_not_conflicts hnodup hnone
    have hstop := registerAll_of_conflict hnodup hnone hget hne after
    refine .inr ⟨before, b, after, bound, rfl, hnone, hget, hne, ?_, ?_, ?_⟩
    · rw [hstop]
    · rw [hstop]
      exact htaken
    · rw [hstop]
      exact hkept

/-! ## Merging -/

/-- A merge takes over all bindings and then the vocabulary, or stops at the first conflict. -/
theorem merge_cases (ns other : Namespaces) :
    ((∀ b ∈ other.bindings, ¬ns.Conflicts b) ∧ (ns.merge other).error = none ∧
      (ns.merge other).context.bindings = ns.bindings ++ other.bindings.filter ns.isNew ∧
      (ns.merge other).context.vocabulary = other.vocabulary.or ns.vocabulary) ∨
    (∃ before b after bound, other.bindings = before ++ b :: after ∧
      (∀ c ∈ before, ¬ns.Conflicts c) ∧ ns.get? b.name = some bound ∧ bound ≠ b.iri ∧
      (ns.merge other).error = some (.prefixCollision b.name bound b.iri) ∧
      (ns.merge other).context.bindings = ns.bindings ++ before.filter ns.isNew ∧
      (ns.merge other).context.vocabulary = ns.vocabulary) := by
  have hcases := registerAll_cases ns other.nodup
  unfold merge
  cases hreg : ns.registerAll other.bindings with
  | mk ns' error =>
    rw [hreg] at hcases
    rcases hcases with ⟨hnone, herror, htaken, hkept⟩ |
      ⟨before, b, after, bound, hsplit, hbefore, hget, hne, herror, htaken, hkept⟩
    · cases herror
      refine .inl ⟨hnone, ?_⟩
      cases other.vocabulary with
      | none => exact ⟨rfl, htaken, hkept⟩
      | some v => exact ⟨rfl, htaken, rfl⟩
    · cases herror
      exact .inr ⟨before, b, after, bound, hsplit, hbefore, hget, hne, rfl, htaken, hkept⟩

/-- No binding of one context conflicts with another just if the prefixes that both bind
have one namespace. -/
theorem forall_not_conflicts_iff :
    (∀ b ∈ other.bindings, ¬ns.Conflicts b) ↔
      ∀ name iri iri', ns.get? name = some iri → other.get? name = some iri' → iri = iri' := by
  constructor
  · intro h name iri iri' hget hget'
    by_contra hne
    exact h ⟨name, iri'⟩ (mem_of_get? hget') ⟨iri, hget, hne⟩
  · intro h b hb hconflict
    obtain ⟨bound, hget, hne⟩ := hconflict
    exact hne (h b.name bound b.iri hget (get?_eq_some_iff.2 hb))

/-! ## Changes -/

inductive Change where
  | register (name iri : String)
  | setVocabulary (iri : String)
  | merge (other : Namespaces)

/-- The context that a change leaves, also if it fails, and its error if it does. -/
def Change.apply : Change → Namespaces → Extension
  | .register name iri, ns => ns.registerAll [⟨name, iri⟩]
  | .setVocabulary iri, ns => ⟨ns.setVocabulary iri, none⟩
  | .merge other, ns => ns.merge other

/-- The context that a run of changes leaves; a change that fails does not stop the run. -/
def after (ns : Namespaces) (changes : List Change) : Namespaces :=
  changes.foldl (fun ns change => (change.apply ns).context) ns

theorem Change.isPrefix_apply (change : Change) (ns : Namespaces) :
    ns.bindings <+: (change.apply ns).context.bindings := by
  cases change with
  | register name iri =>
    show ns.bindings <+: (ns.registerAll [⟨name, iri⟩]).context.bindings
    rcases registerAll_cases ns (nodup_names_singleton ⟨name, iri⟩) with ⟨-, -, htaken, -⟩ |
      ⟨before, b, after, bound, -, -, -, -, -, htaken, -⟩
    · rw [htaken]
      exact List.prefix_append _ _
    · rw [htaken]
      exact List.prefix_append _ _
  | setVocabulary iri => exact List.prefix_refl _
  | merge other =>
    show ns.bindings <+: (ns.merge other).context.bindings
    rcases merge_cases ns other with ⟨-, -, htaken, -⟩ |
      ⟨before, b, after, bound, -, -, -, -, -, htaken, -⟩
    · rw [htaken]
      exact List.prefix_append _ _
    · rw [htaken]
      exact List.prefix_append _ _

theorem isPrefix_after (ns : Namespaces) (changes : List Change) :
    ns.bindings <+: (ns.after changes).bindings := by
  induction changes generalizing ns with
  | nil => exact List.prefix_refl _
  | cons change changes ih => exact (change.isPrefix_apply ns).trans (ih _)

theorem get?_of_isPrefix (h : ns.bindings <+: ns'.bindings) (hget : ns.get? name = some iri) :
    ns'.get? name = some iri := by
  obtain ⟨bs, hbs⟩ := h
  rw [get?_append hbs.symm, hget]
  rfl

theorem error_register_iff {e : ContextError} :
    ((Change.register name iri).apply ns).error = some e ↔
      ∃ bound, ns.get? name = some bound ∧ bound ≠ iri ∧
        e = .prefixCollision name bound iri := by
  show (ns.registerAll [⟨name, iri⟩]).error = some e ↔ _
  rw [registerAll]
  cases hget : ns.get? name with
  | none =>
    obtain ⟨ns', hns', -⟩ := register_of_unbound hget iri
    simp [hns', registerAll]
  | some bound =>
    by_cases hsame : bound = iri
    · simp [register_of_bound hget, registerAll, hsame]
    · simp [register_of_bound hget, hsame, Ne.symm hsame, eq_comm]

/-- Bindings outlast every change.  A registration fails just if the prefix is bound to
another namespace, and then changes nothing.  A merge succeeds just if the two contexts agree
on the prefixes that both bind, and then adds the others in their order and takes the
vocabulary if there is one; otherwise it adds what stands before the first conflict.  So a
prefix keeps its namespace and its place whatever is done afterwards. -/
theorem bindings_permanent (ns : Namespaces) :
    (∀ name iri,
      (∀ e, ((Change.register name iri).apply ns).error = some e ↔
        ∃ bound, ns.get? name = some bound ∧ bound ≠ iri ∧
          e = .prefixCollision name bound iri) ∧
      (((Change.register name iri).apply ns).error ≠ none →
        ((Change.register name iri).apply ns).context = ns) ∧
      (((Change.register name iri).apply ns).error = none →
        ((Change.register name iri).apply ns).context.bindings =
            ns.bindings ++ [(⟨name, iri⟩ : Binding)].filter ns.isNew ∧
          ((Change.register name iri).apply ns).context.vocabulary = ns.vocabulary)) ∧
    (∀ other : Namespaces,
      ((ns.merge other).error = none ↔
        ∀ name iri iri', ns.get? name = some iri → other.get? name = some iri' → iri = iri') ∧
      ((ns.merge other).error = none →
        (ns.merge other).context.bindings = ns.bindings ++ other.bindings.filter ns.isNew ∧
        (ns.merge other).context.vocabulary = other.vocabulary.or ns.vocabulary) ∧
      (∀ e, (ns.merge other).error = some e →
        ∃ before b after bound, other.bindings = before ++ b :: after ∧
          (∀ c ∈ before, ¬ns.Conflicts c) ∧ ns.get? b.name = some bound ∧ bound ≠ b.iri ∧
          e = .prefixCollision b.name bound b.iri ∧
          (ns.merge other).context.bindings = ns.bindings ++ before.filter ns.isNew ∧
          (ns.merge other).context.vocabulary = ns.vocabulary)) ∧
    (∀ changes : List Change, ns.bindings <+: (ns.after changes).bindings ∧
      ∀ name iri, ns.get? name = some iri → (ns.after changes).get? name = some iri) := by
  refine ⟨fun name iri => ⟨fun e => error_register_iff, ?_, ?_⟩, fun other => ?_, fun changes => ?_⟩
  · intro herror
    obtain ⟨e, he⟩ := Option.ne_none_iff_exists'.1 herror
    obtain ⟨bound, hget, hne, -⟩ := error_register_iff.1 he
    show (ns.registerAll [⟨name, iri⟩]).context = ns
    rw [registerAll, register_of_bound hget, if_neg hne]
  · intro herror
    rcases registerAll_cases ns (nodup_names_singleton ⟨name, iri⟩) with ⟨-, -, htaken, hkept⟩ |
      ⟨before, b, after, bound, -, -, -, -, hstop, -⟩
    · exact ⟨htaken, hkept⟩
    · rw [show ((Change.register name iri).apply ns).error = _ from hstop] at herror
      cases herror
  · rw [← forall_not_conflicts_iff]
    rcases merge_cases ns other with ⟨hnone, herror, htaken, hkept⟩ |
      ⟨before, b, after, bound, hsplit, hbefore, hget, hne, herror, htaken, hkept⟩
    · refine ⟨⟨fun _ => hnone, fun _ => herror⟩, fun _ => ⟨htaken, hkept⟩, fun e he => ?_⟩
      rw [herror] at he
      cases he
    · have hb : b ∈ other.bindings := by
        rw [hsplit]
        simp
      rw [herror]
      refine ⟨⟨fun h => (nomatch h), fun h => ?_⟩, fun h => (nomatch h), fun e he => ?_⟩
      · exact absurd ⟨bound, hget, hne⟩ (h b hb)
      · cases he
        exact ⟨before, b, after, bound, hsplit, hbefore, hget, hne, rfl, htaken, hkept⟩
  · have hgrown := isPrefix_after ns changes
    exact ⟨hgrown, fun name iri hget => get?_of_isPrefix hgrown hget⟩

/-- A merge that fails in the middle: the first prefix stays, the last one is never reached. -/
example :
    let garage : Namespaces := ⟨[⟨"car", "urn:car#"⟩, ⟨"sh", "urn:shed#"⟩, ⟨"van", "urn:van#"⟩],
      some "urn:garage#", by decide⟩
    (common.merge garage).error =
        some (.prefixCollision "sh" Vocabulary.shaclNamespace "urn:shed#") ∧
      (common.merge garage).context.bindings = commonBindings ++ [⟨"car", "urn:car#"⟩] ∧
      (common.merge garage).context.vocabulary = none := by
  decide

end Namespaces
end OntologyModel

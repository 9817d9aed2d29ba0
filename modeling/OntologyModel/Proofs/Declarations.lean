/-
What a context takes in, one declaration after the other.

Every source of a context comes down to a list of declarations: bindings, choices of a
vocabulary, and values that no context can be read from.  A context takes one of them in or
refuses it, and so, by induction, a whole list: it is taken in just if nothing in it is out of
place and no prefix gets two namespaces.  That does not depend on the order of the list, which
decides only where the prefixes stand and which vocabulary remains.  Otherwise the first
declaration that does not go with those before it is the one that is complained about.
-/
import OntologyModel.Proofs.Registration

namespace OntologyModel
namespace Namespaces

variable {ns ns' : Namespaces} {b c : Binding} {as bs cs : List Binding}

/-! ## Bindings that agree -/

/-- No prefix is bound to two namespaces. -/
def Agree (bs : List Binding) : Prop := ∀ b ∈ bs, ∀ c ∈ bs, b.name = c.name → b.iri = c.iri

instance (bs : List Binding) : Decidable (Agree bs) :=
  inferInstanceAs (Decidable (∀ b ∈ bs, ∀ c ∈ bs, b.name = c.name → b.iri = c.iri))

theorem Agree.of_subset (h : Agree bs) (hsub : cs ⊆ bs) : Agree cs :=
  fun b hb c hc => h b (hsub hb) c (hsub hc)

theorem agree_congr (h : ∀ b, b ∈ cs ↔ b ∈ bs) : Agree cs ↔ Agree bs :=
  ⟨fun hcs => hcs.of_subset fun _ hb => (h _).2 hb, fun hbs => hbs.of_subset fun _ hb => (h _).1 hb⟩

theorem Agree.eq_of_name (h : Agree bs) (hb : b ∈ bs) (hc : c ∈ bs) (hname : b.name = c.name) :
    b = c := by
  have hiri := h b hb c hc hname
  cases b
  cases c
  simp_all

theorem agree_of_nodup (h : (bs.map Binding.name).Nodup) : Agree bs := by
  intro b hb c hc hname
  rw [List.inj_on_of_nodup_map h hb hc hname]

theorem agree_bindings (ns : Namespaces) : Agree ns.bindings := agree_of_nodup ns.nodup

/-! ## First bindings -/

/-- The first binding of every prefix, in the order in which they stand. -/
def firsts : List Binding → List Binding
  | [] => []
  | b :: bs => b :: (firsts bs).filter fun c => c.name ≠ b.name

theorem firsts_sublist (bs : List Binding) : (firsts bs).Sublist bs := by
  induction bs with
  | nil => exact List.Sublist.slnil
  | cons b bs ih => exact (List.filter_sublist.trans ih).cons_cons b

theorem nodup_firsts (bs : List Binding) : ((firsts bs).map Binding.name).Nodup := by
  induction bs with
  | nil => exact List.nodup_nil
  | cons b bs ih =>
    rw [firsts, List.map_cons, List.nodup_cons]
    refine ⟨?_, ih.sublist (List.filter_sublist.map Binding.name)⟩
    simp

theorem firsts_of_nodup (h : (bs.map Binding.name).Nodup) : firsts bs = bs := by
  induction bs with
  | nil => rfl
  | cons b bs ih =>
    rw [List.map_cons, List.nodup_cons] at h
    rw [firsts, ih h.2, List.filter_eq_self.2]
    intro c hc
    refine decide_eq_true fun hname => h.1 ?_
    rw [← hname]
    exact List.mem_map_of_mem hc

/-- Bindings of other prefixes come behind those that are there. -/
theorem firsts_append (as bs : List Binding) :
    firsts (as ++ bs) = firsts as ++ (firsts bs).filter fun b => b.name ∉ as.map Binding.name := by
  induction as with
  | nil => simp [firsts]
  | cons a as ih =>
    rw [List.cons_append, firsts, firsts, ih, List.filter_append, List.filter_filter,
      List.cons_append]
    congr 2
    refine List.filter_congr fun b _ => ?_
    simp [not_or]

theorem mem_names_firsts {name : String} :
    name ∈ (firsts bs).map Binding.name ↔ name ∈ bs.map Binding.name := by
  induction bs with
  | nil => exact Iff.rfl
  | cons b bs ih =>
    by_cases hname : name = b.name
    · simp [firsts, hname]
    · rw [firsts, List.map_cons, List.map_cons, List.mem_cons, List.mem_cons, ← ih]
      refine or_congr_right ?_
      simp only [List.mem_map, List.mem_filter, decide_eq_true_eq]
      constructor
      · rintro ⟨c, ⟨hc, -⟩, rfl⟩
        exact ⟨c, hc, rfl⟩
      · rintro ⟨c, hc, rfl⟩
        exact ⟨c, ⟨hc, hname⟩, rfl⟩

/-- Where bindings agree, leaving out later ones of a prefix loses none. -/
theorem mem_firsts (h : Agree bs) : b ∈ firsts bs ↔ b ∈ bs := by
  refine ⟨fun hb => (firsts_sublist bs).subset hb, fun hb => ?_⟩
  obtain ⟨c, hc, hname⟩ := List.mem_map.1 (mem_names_firsts.2 (List.mem_map_of_mem hb))
  rwa [h.eq_of_name hb ((firsts_sublist bs).subset hc) hname.symm]

theorem firsts_firsts_append (as bs : List Binding) :
    firsts (firsts as ++ bs) = firsts (as ++ bs) := by
  rw [firsts_append, firsts_append, firsts_of_nodup (nodup_firsts as)]
  refine congrArg (firsts as ++ ·) (List.filter_congr fun b _ => ?_)
  simp only [mem_names_firsts]

theorem firsts_append_firsts (as bs : List Binding) :
    firsts (as ++ firsts bs) = firsts (as ++ bs) := by
  rw [firsts_append, firsts_append, firsts_of_nodup (nodup_firsts bs)]

theorem firsts_append_firsts_append (as bs cs : List Binding) :
    firsts (as ++ (firsts bs ++ cs)) = firsts (as ++ (bs ++ cs)) := by
  rw [← firsts_append_firsts, firsts_firsts_append, firsts_append_firsts]

theorem agree_firsts_append (h : Agree as) : Agree (firsts as ++ bs) ↔ Agree (as ++ bs) := by
  refine agree_congr fun b => ?_
  rw [List.mem_append, List.mem_append, mem_firsts h]

theorem agree_append_firsts (h : Agree bs) : Agree (as ++ firsts bs) ↔ Agree (as ++ bs) := by
  refine agree_congr fun b => ?_
  rw [List.mem_append, List.mem_append, mem_firsts h]

/-! ## Declarations -/

inductive Declaration where
  | binding (b : Binding)
  | vocabulary (iri : String)
  /-- A value that no context can be read from, by its text. -/
  | misplaced (found : String)
deriving DecidableEq, Repr

namespace Declaration

def binding? : Declaration → Option Binding
  | .binding b => some b
  | _ => none

def vocabulary? : Declaration → Option String
  | .vocabulary iri => some iri
  | _ => none

end Declaration

variable {d : Declaration} {ds ds' : List Declaration} {e : ContextError}

def bindingsOf (ds : List Declaration) : List Binding := ds.filterMap Declaration.binding?

/-- The last vocabulary that is chosen. -/
def vocabularyOf (ds : List Declaration) : Option String :=
  (ds.filterMap Declaration.vocabulary?).getLast?

theorem bindingsOf_append (ds ds' : List Declaration) :
    bindingsOf (ds ++ ds') = bindingsOf ds ++ bindingsOf ds' := List.filterMap_append

theorem bindingsOf_cons (d : Declaration) (ds : List Declaration) :
    bindingsOf (d :: ds) = bindingsOf [d] ++ bindingsOf ds := bindingsOf_append [d] ds

theorem mem_bindingsOf : b ∈ bindingsOf ds ↔ .binding b ∈ ds := by
  rw [bindingsOf, List.mem_filterMap]
  constructor
  · rintro ⟨d, hd, hb⟩
    cases d with
    | binding c => exact Option.some.inj hb ▸ hd
    | vocabulary iri => cases hb
    | misplaced found => cases hb
  · exact fun hb => ⟨_, hb, rfl⟩

theorem bindingsOf_map_binding (bs : List Binding) : bindingsOf (bs.map .binding) = bs := by
  rw [bindingsOf, List.filterMap_map]
  exact List.filterMap_some

theorem vocabularyOf_append (ds ds' : List Declaration) :
    vocabularyOf (ds ++ ds') = (vocabularyOf ds').or (vocabularyOf ds) := by
  rw [vocabularyOf, List.filterMap_append, List.getLast?_append]
  rfl

theorem vocabularyOf_cons (d : Declaration) (ds : List Declaration) :
    vocabularyOf (d :: ds) = (vocabularyOf ds).or (vocabularyOf [d]) := vocabularyOf_append [d] ds

theorem vocabularyOf_map_binding (bs : List Binding) : vocabularyOf (bs.map .binding) = none := by
  rw [vocabularyOf, List.filterMap_map]
  simp [Function.comp_def, Declaration.vocabulary?]

/-- Declarations that go with bindings and with one another. -/
structure Admissible (bs : List Binding) (ds : List Declaration) : Prop where
  placed : ∀ found, .misplaced found ∉ ds
  agree : Agree (bs ++ bindingsOf ds)

inductive Refuses (bs : List Binding) : Declaration → ContextError → Prop where
  | misplaced (found : String) : Refuses bs (.misplaced found) (.invalidDocument found)
  | collision {earlier later : Binding} (mem : earlier ∈ bs) (name : earlier.name = later.name)
      (iri : earlier.iri ≠ later.iri) :
      Refuses bs (.binding later) (.prefixCollision later.name earlier.iri later.iri)

theorem Refuses.congr (h : Refuses bs d e) (hsame : ∀ b, b ∈ bs → b ∈ cs) : Refuses cs d e := by
  cases h with
  | misplaced found => exact .misplaced found
  | collision mem name iri => exact .collision (hsame _ mem) name iri

theorem Refuses.not_admissible (h : Refuses (bs ++ bindingsOf ds) d e) :
    ¬Admissible bs (ds ++ d :: ds') := by
  rintro ⟨hplaced, hagree⟩
  cases h with
  | misplaced found => exact hplaced found (List.mem_append_right _ List.mem_cons_self)
  | @collision earlier later mem name iri =>
    rw [bindingsOf_append, ← List.append_assoc] at hagree
    have hlater : later ∈ bindingsOf (.binding later :: ds') := mem_bindingsOf.2 List.mem_cons_self
    exact iri (hagree _ (List.mem_append_left _ mem) _ (List.mem_append_right _ hlater) name)

theorem admissible_nil (ns : Namespaces) : Admissible ns.bindings [] where
  placed _ := List.not_mem_nil
  agree := by
    rw [bindingsOf, List.filterMap_nil, List.append_nil]
    exact ns.agree_bindings

theorem Admissible.bindings_agree (h : Admissible bs ds) : Agree (bindingsOf ds) :=
  h.agree.of_subset (List.subset_append_right _ _)

theorem Admissible.of_subset (h : Admissible bs ds) (hsub : cs ⊆ bs) : Admissible cs ds where
  placed := h.placed
  agree := h.agree.of_subset (List.append_subset.2
    ⟨fun _ hb => List.mem_append_left _ (hsub hb), List.subset_append_right _ _⟩)

theorem Admissible.of_perm (h : Admissible bs ds) (hperm : ds.Perm ds') : Admissible bs ds' where
  placed found hfound := h.placed found (hperm.mem_iff.2 hfound)
  agree := by
    refine (agree_congr fun b => ?_).1 h.agree
    rw [List.mem_append, List.mem_append, mem_bindingsOf, mem_bindingsOf, hperm.mem_iff]

/-! ## One declaration -/

def declare (ns : Namespaces) : Declaration → Except ContextError Namespaces
  | .binding b => ns.register b.name b.iri
  | .vocabulary iri => .ok (ns.setVocabulary iri)
  | .misplaced found => .error (.invalidDocument found)

/-- A binding is either refused, or taken in behind those that are there. -/
theorem register_cases (ns : Namespaces) (b : Binding) :
    (Agree (ns.bindings ++ [b]) ∧ ∃ ns', ns.register b.name b.iri = .ok ns' ∧
      ns'.bindings = firsts (ns.bindings ++ [b]) ∧ ns'.vocabulary = ns.vocabulary) ∨
    ∃ e, ns.register b.name b.iri = .error e ∧ Refuses ns.bindings (.binding b) e := by
  have hold : firsts ns.bindings = ns.bindings := firsts_of_nodup ns.nodup
  cases hget : ns.get? b.name with
  | none =>
    have hnew : b.name ∉ ns.bindings.map Binding.name := by
      rintro hmem
      obtain ⟨c, hc, hname⟩ := List.mem_map.1 hmem
      have hbound : ns.get? b.name = some c.iri := get?_eq_some_iff.2 (hname ▸ hc)
      rw [hget] at hbound
      cases hbound
    have hnodup : ((ns.bindings ++ [b]).map Binding.name).Nodup := by
      rw [List.map_append, List.nodup_append]
      refine ⟨ns.nodup, nodup_names_singleton b, fun a ha a' ha' heq => hnew ?_⟩
      rwa [← List.mem_singleton.1 ha', ← heq]
    obtain ⟨ns', hns', hbindings, hvocabulary⟩ := register_of_unbound hget b.iri
    refine .inl ⟨agree_of_nodup hnodup, ns', hns', ?_, hvocabulary⟩
    rw [hbindings, firsts_of_nodup hnodup]
  | some bound =>
    have hmem := mem_of_get? hget
    by_cases hsame : bound = b.iri
    · rw [hsame] at hmem
      refine .inl ⟨ns.agree_bindings.of_subset ?_, ns, ?_, ?_, rfl⟩
      · intro c hc
        rcases List.mem_append.1 hc with hc | hc
        · exact hc
        · rwa [List.mem_singleton.1 hc]
      · rw [register_of_bound hget, if_pos hsame]
      · rw [firsts_append, hold, firsts, firsts, List.filter_nil, List.filter_cons_of_neg,
          List.filter_nil, List.append_nil]
        simpa using ⟨_, hmem, rfl⟩
    · refine .inr ⟨_, ?_, .collision hmem rfl hsame⟩
      rw [register_of_bound hget, if_neg hsame]

theorem declare_cases (ns : Namespaces) (d : Declaration) :
    (Admissible ns.bindings [d] ∧ ∃ ns', ns.declare d = .ok ns' ∧
      ns'.bindings = firsts (ns.bindings ++ bindingsOf [d]) ∧
      ns'.vocabulary = (vocabularyOf [d]).or ns.vocabulary) ∨
    ∃ e, ns.declare d = .error e ∧ Refuses ns.bindings d e := by
  cases d with
  | binding b =>
    refine (register_cases ns b).imp_left fun h => ?_
    exact ⟨⟨by simp, h.1⟩, h.2⟩
  | vocabulary iri =>
    have hbindings : ns.bindings ++ bindingsOf [.vocabulary iri] = ns.bindings :=
      List.append_nil _
    refine .inl ⟨⟨by simp, ?_⟩, _, rfl, ?_, rfl⟩
    · rw [hbindings]
      exact ns.agree_bindings
    · rw [hbindings, firsts_of_nodup ns.nodup]
      rfl
  | misplaced found => exact .inr ⟨_, rfl, .misplaced found⟩

theorem declare_eq_error_iff : ns.declare d = .error e ↔ Refuses ns.bindings d e := by
  constructor
  · intro h
    rcases declare_cases ns d with ⟨-, ns', hns', -⟩ | ⟨e', he, hrefuses⟩
    · rw [hns'] at h
      cases h
    · rw [he] at h
      cases h
      exact hrefuses
  · intro h
    cases h with
    | misplaced found => rfl
    | @collision earlier later mem name iri =>
      have hget : ns.get? later.name = some earlier.iri := get?_eq_some_iff.2 (name ▸ mem)
      exact (register_of_bound hget later.iri).trans (if_neg iri)

/-! ## Lists of declarations -/

def declareAll (ns : Namespaces) : List Declaration → Except ContextError Namespaces
  | [] => .ok ns
  | d :: ds =>
    match ns.declare d with
    | .ok ns' => declareAll ns' ds
    | .error e => .error e

theorem declareAll_append (ns : Namespaces) (ds ds' : List Declaration) :
    ns.declareAll (ds ++ ds') = ns.declareAll ds >>= fun ns' => ns'.declareAll ds' := by
  induction ds generalizing ns with
  | nil => rfl
  | cons d ds ih =>
    rw [List.cons_append, declareAll, declareAll]
    cases ns.declare d with
    | ok ns' => exact ih ns'
    | error e => rfl

/-- After a declaration was taken in, the next ones have to go with it as well. -/
theorem admissible_cons (h : Admissible bs [d]) :
    Admissible (firsts (bs ++ bindingsOf [d])) ds ↔ Admissible bs (d :: ds) := by
  constructor
  · rintro ⟨hplaced, hagree⟩
    refine ⟨fun found hfound => ?_, ?_⟩
    · rcases List.mem_cons.1 hfound with heq | hfound
      · exact h.placed found (heq ▸ List.mem_singleton_self _)
      · exact hplaced found hfound
    · rw [agree_firsts_append h.agree, List.append_assoc, ← bindingsOf_cons] at hagree
      exact hagree
  · rintro ⟨hplaced, hagree⟩
    refine ⟨fun found hfound => hplaced found (List.mem_cons_of_mem _ hfound), ?_⟩
    rw [agree_firsts_append h.agree, List.append_assoc, ← bindingsOf_cons]
    exact hagree

/-- A list of declarations is taken in as a whole, or up to the first one that does not go with
those before it. -/
theorem declareAll_cases (ns : Namespaces) (ds : List Declaration) :
    (Admissible ns.bindings ds ∧ ∃ ns', ns.declareAll ds = .ok ns' ∧
      ns'.bindings = firsts (ns.bindings ++ bindingsOf ds) ∧
      ns'.vocabulary = (vocabularyOf ds).or ns.vocabulary) ∨
    ∃ before d after e, ds = before ++ d :: after ∧ Admissible ns.bindings before ∧
      Refuses (ns.bindings ++ bindingsOf before) d e ∧ ns.declareAll ds = .error e := by
  induction ds generalizing ns with
  | nil =>
    have hbindings : ns.bindings ++ bindingsOf [] = ns.bindings := List.append_nil _
    refine .inl ⟨ns.admissible_nil, ns, rfl, ?_, rfl⟩
    rw [hbindings, firsts_of_nodup ns.nodup]
  | cons d ds ih =>
    rw [declareAll]
    rcases declare_cases ns d with ⟨hd, ns₁, hns₁, hbindings, hvocabulary⟩ | ⟨e, he, hrefuses⟩
    -- The rest goes with the context that was reached just if the whole goes with this one.
    · rw [hns₁]
      rcases ih ns₁ with ⟨hds, ns₂, hns₂, hbindings₂, hvocabulary₂⟩ |
        ⟨before, d', after, e, rfl, hbefore, hrefuses, he⟩
      · rw [hbindings, admissible_cons hd] at hds
        refine .inl ⟨hds, ns₂, hns₂, ?_, ?_⟩
        · rw [hbindings₂, hbindings, firsts_firsts_append, List.append_assoc, ← bindingsOf_cons]
        · rw [hvocabulary₂, hvocabulary, vocabularyOf_cons d ds, Option.or_assoc]
      · rw [hbindings, admissible_cons hd] at hbefore
        refine .inr ⟨d :: before, d', after, e, rfl, hbefore, hrefuses.congr fun b hb => ?_, he⟩
        rw [hbindings, List.mem_append, mem_firsts hd.agree] at hb
        rwa [bindingsOf_cons, ← List.append_assoc, List.mem_append]
    · rw [he]
      refine .inr ⟨[], d, ds, e, rfl, ns.admissible_nil, hrefuses.congr fun b hb => ?_, rfl⟩
      exact List.mem_append_left _ hb

theorem ext_of_parts (hbindings : ns.bindings = ns'.bindings)
    (hvocabulary : ns.vocabulary = ns'.vocabulary) : ns = ns' := by
  cases ns
  cases ns'
  cases hbindings
  cases hvocabulary
  rfl

theorem declareAll_eq_ok_iff :
    ns.declareAll ds = .ok ns' ↔ Admissible ns.bindings ds ∧
      ns'.bindings = firsts (ns.bindings ++ bindingsOf ds) ∧
      ns'.vocabulary = (vocabularyOf ds).or ns.vocabulary := by
  rcases declareAll_cases ns ds with ⟨hds, ns₁, hns₁, hbindings, hvocabulary⟩ |
    ⟨before, d, after, e, rfl, -, hrefuses, he⟩
  · rw [hns₁, Except.ok.injEq]
    constructor
    · rintro rfl
      exact ⟨hds, hbindings, hvocabulary⟩
    · rintro ⟨-, hbindings', hvocabulary'⟩
      exact ext_of_parts (hbindings.trans hbindings'.symm) (hvocabulary.trans hvocabulary'.symm)
  · rw [he]
    exact ⟨fun h => (nomatch h), fun h => absurd h.1 hrefuses.not_admissible⟩

theorem declareAll_empty_eq_ok_iff :
    empty.declareAll ds = .ok ns ↔ Admissible [] ds ∧ ns.bindings = firsts (bindingsOf ds) ∧
      ns.vocabulary = vocabularyOf ds := by
  have hnone : empty.vocabulary = none := rfl
  rw [declareAll_eq_ok_iff, hnone, Option.or_none]
  exact Iff.rfl

theorem declareAll_isOk_iff :
    (∃ ns', ns.declareAll ds = .ok ns') ↔ Admissible ns.bindings ds := by
  rcases declareAll_cases ns ds with ⟨hds, ns', hns', -⟩ |
    ⟨before, d, after, e, rfl, -, hrefuses, he⟩
  · exact ⟨fun _ => hds, fun _ => ⟨ns', hns'⟩⟩
  · rw [he]
    exact ⟨fun ⟨_, h⟩ => (nomatch h), fun h => absurd h hrefuses.not_admissible⟩

/-- The error is that of the first declaration that does not go with those before it. -/
theorem declareAll_eq_error_iff :
    ns.declareAll ds = .error e ↔ ∃ before d after, ds = before ++ d :: after ∧
      Admissible ns.bindings before ∧ Refuses (ns.bindings ++ bindingsOf before) d e := by
  constructor
  · intro h
    rcases declareAll_cases ns ds with ⟨-, ns', hns', -⟩ |
      ⟨before, d, after, e', rfl, hbefore, hrefuses, he⟩
    · rw [hns'] at h
      cases h
    · rw [he] at h
      cases h
      exact ⟨before, d, after, rfl, hbefore, hrefuses⟩
  · rintro ⟨before, d, after, rfl, hbefore, hrefuses⟩
    obtain ⟨ns₁, hns₁⟩ := declareAll_isOk_iff.2 hbefore
    obtain ⟨-, hbindings, -⟩ := declareAll_eq_ok_iff.1 hns₁
    have hstop : Refuses ns₁.bindings d e := by
      refine hrefuses.congr fun b hb => ?_
      rw [hbindings]
      exact (mem_firsts hbefore.agree).2 hb
    rw [declareAll_append, hns₁]
    show ns₁.declareAll (d :: after) = _
    rw [declareAll, declare_eq_error_iff.2 hstop]

end Namespaces
end OntologyModel

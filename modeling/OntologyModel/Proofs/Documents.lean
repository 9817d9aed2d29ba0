/-
What a document says as a context.

A document is taken apart into its leaves, the values in it that are no arrays, from left to
right.  A leaf declares something only if it is an object, by its terms in ascending order, or a
scalar, which is out of place.  Applying a document is declaring what its leaves declare one
after the other; the induction is on the value and carries any context that was reached before.
So arrays may be nested and split at will, and what is known of lists of declarations says which
documents are contexts, what they bind, and what is wrong with the others.
-/
import OntologyModel.Context.Document
import OntologyModel.Proofs.Ascending
import OntologyModel.Proofs.Declarations

namespace OntologyModel

/-! ## Terms of an object -/

namespace Json.Value

variable {members : List (String × Value)} {name : String} {v : Value}

theorem lastMember_eq_none (h : name ∉ members.map Prod.fst) : lastMember name members = none := by
  induction members with
  | nil => rfl
  | cons m rest ih =>
    obtain ⟨hne, hrest⟩ := not_or.1 (mt List.mem_cons.2 h)
    rw [lastMember, ih hrest]
    exact if_neg (Ne.symm hne)

theorem mem_entries : (name, v) ∈ entries members ↔ lastMember name members = some v := by
  rw [entries, List.mem_filterMap]
  constructor
  · rintro ⟨n, -, hn⟩
    obtain ⟨w, hw, heq⟩ := Option.map_eq_some_iff.1 hn
    cases heq
    exact hw
  · intro h
    refine ⟨name, ?_, by rw [h, Option.map_some]⟩
    rw [Text.mem_ascendingTexts]
    by_contra hnot
    rw [lastMember_eq_none hnot] at h
    cases h

theorem map_fst_entries_sublist (members : List (String × Value)) :
    ((entries members).map Prod.fst).Sublist (Text.ascendingTexts (members.map Prod.fst)) := by
  rw [entries]
  generalize Text.ascendingTexts (members.map Prod.fst) = names
  induction names with
  | nil => exact List.Sublist.slnil
  | cons name names ih =>
    rw [List.filterMap_cons]
    cases lastMember name members with
    | none => exact ih.cons name
    | some v => exact ih.cons_cons name

/-- The terms of an object are read in ascending order. -/
theorem pairwise_entries (members : List (String × Value)) :
    ((entries members).map Prod.fst).Pairwise (· < ·) :=
  (Text.pairwise_ascendingTexts _).sublist (map_fst_entries_sublist members)

end Json.Value

namespace Namespaces

open Json (Value)

variable {ns : Namespaces} {v w document : Value} {term iri : String} {b : Binding}

/-! ## Leaves -/

mutual
/-- The values in a value that are no arrays, from left to right. -/
def leaves : Value → List Value
  | .array items => leavesAll items
  | v => [v]

def leavesAll : List Value → List Value
  | [] => []
  | v :: rest => leaves v ++ leavesAll rest
end

def termDeclaration? (term : String) : Value → Option Declaration
  | .text iri =>
    if term = "@vocab" then some (.vocabulary iri)
    else if isKeyword term || isKeyword iri then none
    else some (.binding ⟨term, iri⟩)
  | _ => none

/-- What a leaf declares: an object by its terms, a scalar that it is misplaced. -/
def leafDeclarations : Value → List Declaration
  | .object members => (Value.entries members).filterMap fun m => termDeclaration? m.1 m.2
  | .bool b => [.misplaced (String.ofList (Value.bool b).compact)]
  | .number n => [.misplaced (String.ofList (Value.number n).compact)]
  | _ => []

def declarations (v : Value) : List Declaration := (leaves v).flatMap leafDeclarations

theorem applyTerm_eq (ns : Namespaces) (term : String) (v : Value) :
    ns.applyTerm term v = ns.declareAll (termDeclaration? term v).toList := by
  cases v with
  | text iri =>
    rw [applyTerm, termDeclaration?]
    by_cases hvocab : term = "@vocab"
    · rw [if_pos hvocab, if_pos hvocab]
      rfl
    · rw [if_neg hvocab, if_neg hvocab]
      by_cases hkeyword : (isKeyword term || isKeyword iri) = true
      · rw [if_pos hkeyword, if_pos hkeyword]
        rfl
      · rw [if_neg hkeyword, if_neg hkeyword, Option.toList_some, declareAll, declare]
        cases ns.register term iri <;> rfl
  | _ => rfl

theorem filterMap_termDeclaration?_cons (m : String × Value) (terms : List (String × Value)) :
    (m :: terms).filterMap (fun m => termDeclaration? m.1 m.2) =
      (termDeclaration? m.1 m.2).toList ++ terms.filterMap fun m => termDeclaration? m.1 m.2 := by
  rw [List.filterMap_cons]
  cases termDeclaration? m.1 m.2 <;> rfl

theorem applyTerms_eq (ns : Namespaces) (terms : List (String × Value)) :
    ns.applyTerms terms = ns.declareAll (terms.filterMap fun m => termDeclaration? m.1 m.2) := by
  induction terms generalizing ns with
  | nil => rfl
  | cons m rest ih =>
    rw [filterMap_termDeclaration?_cons, declareAll_append, ← applyTerm_eq, applyTerms]
    cases ns.applyTerm m.1 m.2 with
    | ok ns' => exact ih ns'
    | error e => rfl

mutual
/-- Applying a value is declaring what its leaves declare, whatever was declared before. -/
theorem applyContext_eq (ns : Namespaces) (v : Value) :
    ns.applyContext v = ns.declareAll (declarations v) := by
  cases v with
  | array items => exact applyContexts_eq ns items
  | object members =>
    show ns.applyTerms (Value.entries members) = ns.declareAll (leafDeclarations _ ++ [])
    rw [applyTerms_eq, List.append_nil]
    rfl
  | null => rfl
  | bool b => rfl
  | number n => rfl
  | text s => rfl

theorem applyContexts_eq (ns : Namespaces) (items : List Value) :
    ns.applyContexts items = ns.declareAll ((leavesAll items).flatMap leafDeclarations) := by
  cases items with
  | nil => rfl
  | cons v rest =>
    rw [applyContexts, applyContext_eq ns v, leavesAll, List.flatMap_append, declareAll_append]
    show _ = ns.declareAll (declarations v) >>= _
    cases ns.declareAll (declarations v) with
    | ok ns' => exact applyContexts_eq ns' rest
    | error e => rfl
end

theorem ofDocument_eq (document : Value) :
    ofDocument document = empty.declareAll (declarations (contextRoot document)) :=
  applyContext_eq empty (contextRoot document)

/-! ## What leaves declare -/

/-- Strings, which refer to documents elsewhere, and nulls declare nothing. -/
def Contributes : Value → Bool
  | .text _ | .null => false
  | _ => true

/-- Two leaves that read alike: objects with the same terms, or the same value. -/
def ReadsAlike : Value → Value → Prop
  | .object members, .object members' => Value.entries members = Value.entries members'
  | v, w => v = w

theorem leafDeclarations_congr (h : ReadsAlike v w) : leafDeclarations v = leafDeclarations w := by
  cases v with
  | object members =>
    cases w with
    | object members' => exact congrArg (List.filterMap _) h
    | _ => cases h
  | _ => cases h; rfl

theorem declarations_eq_filter (v : Value) :
    declarations v = ((leaves v).filter Contributes).flatMap leafDeclarations := by
  rw [declarations]
  induction leaves v with
  | nil => rfl
  | cons leaf rest ih =>
    rw [List.flatMap_cons, ih]
    cases leaf <;> rfl

theorem declarations_congr
    (h : List.Forall₂ ReadsAlike ((leaves v).filter Contributes) ((leaves w).filter Contributes)) :
    declarations v = declarations w := by
  rw [declarations_eq_filter, declarations_eq_filter]
  generalize (leaves v).filter Contributes = vs at h
  generalize (leaves w).filter Contributes = ws at h
  induction h with
  | nil => rfl
  | cons hleaf _ ih => rw [List.flatMap_cons, List.flatMap_cons, leafDeclarations_congr hleaf, ih]

/-- Numbers and truth values, which cannot be read as contexts. -/
def IsScalar : Value → Prop
  | .bool _ | .number _ => True
  | _ => False

/-- An object that binds a term to a namespace: neither of the two is a keyword. -/
def Binds (v : Value) (term iri : String) : Prop :=
  ∃ members, v = .object members ∧ Value.lastMember term members = some (.text iri) ∧
    isKeyword term = false ∧ isKeyword iri = false

theorem termDeclaration?_eq_binding_iff :
    termDeclaration? term v = some (.binding b) ↔
      v = .text b.iri ∧ term = b.name ∧ isKeyword b.name = false ∧ isKeyword b.iri = false := by
  cases v with
  | text iri =>
    rw [termDeclaration?]
    by_cases hvocab : term = "@vocab"
    · rw [if_pos hvocab]
      refine ⟨fun h => (nomatch h), fun ⟨_, hname, hkeyword, _⟩ => ?_⟩
      rw [← hname, hvocab] at hkeyword
      exact absurd hkeyword (by decide)
    · rw [if_neg hvocab]
      by_cases hkeyword : (isKeyword term || isKeyword iri) = true
      · rw [if_pos hkeyword]
        refine ⟨fun h => (nomatch h), ?_⟩
        rintro ⟨hiri, rfl, hname, hspace⟩
        cases hiri
        rw [hname, hspace] at hkeyword
        exact absurd hkeyword (by decide)
      · rw [if_neg hkeyword]
        rw [Bool.or_eq_true, not_or, Bool.not_eq_true, Bool.not_eq_true] at hkeyword
        constructor
        · rintro ⟨⟩
          exact ⟨rfl, rfl, hkeyword⟩
        · rintro ⟨hiri, rfl, -⟩
          cases hiri
          rfl
  | _ => exact ⟨fun h => (nomatch h), fun h => (nomatch h.1)⟩

theorem bindingsOf_toList_termDeclaration? (term : String) (v : Value) :
    ((bindingsOf (termDeclaration? term v).toList).map Binding.name).Sublist [term] := by
  cases hdeclares : termDeclaration? term v with
  | none => exact List.nil_sublist _
  | some d =>
    cases d with
    | binding b =>
      rw [(termDeclaration?_eq_binding_iff.1 hdeclares).2.1]
      exact List.Sublist.refl _
    | vocabulary iri => exact List.nil_sublist _
    | misplaced found => exact List.nil_sublist _

theorem termDeclaration?_ne_misplaced (term : String) (v : Value) (found : String) :
    termDeclaration? term v ≠ some (.misplaced found) := by
  cases v with
  | text iri =>
    rw [termDeclaration?]
    split
    · nofun
    · split <;> nofun
  | _ => nofun

theorem binding_mem_leafDeclarations :
    .binding b ∈ leafDeclarations v ↔ Binds v b.name b.iri := by
  cases v with
  | object members =>
    rw [leafDeclarations, List.mem_filterMap]
    constructor
    · rintro ⟨⟨term, v⟩, hmem, hdeclares⟩
      obtain ⟨rfl, rfl, hkeywords⟩ := termDeclaration?_eq_binding_iff.1 hdeclares
      exact ⟨members, rfl, Value.mem_entries.1 hmem, hkeywords⟩
    · rintro ⟨_, hobject, hmember, hkeywords⟩
      cases hobject
      exact ⟨_, Value.mem_entries.2 hmember,
        termDeclaration?_eq_binding_iff.2 ⟨rfl, rfl, hkeywords⟩⟩
  | _ => simp [leafDeclarations, Binds]

/-- A leaf binds its terms in ascending order. -/
theorem pairwise_bindingsOf_leafDeclarations (v : Value) :
    ((bindingsOf (leafDeclarations v)).map Binding.name).Pairwise (· < ·) := by
  cases v with
  | object members =>
    refine (Value.pairwise_entries members).sublist ?_
    rw [leafDeclarations]
    induction Value.entries members with
    | nil => exact List.Sublist.slnil
    | cons m rest ih =>
      rw [filterMap_termDeclaration?_cons, bindingsOf_append, List.map_append, List.map_cons]
      exact (bindingsOf_toList_termDeclaration? m.1 m.2).append ih
  | _ => exact List.Pairwise.nil

theorem misplaced_mem_leafDeclarations :
    (∃ found, .misplaced found ∈ leafDeclarations v) ↔ IsScalar v := by
  cases v with
  | object members =>
    refine ⟨fun ⟨found, h⟩ => ?_, False.elim⟩
    obtain ⟨m, -, hm⟩ := List.mem_filterMap.1 h
    exact absurd hm (termDeclaration?_ne_misplaced m.1 m.2 found)
  | _ => simp [leafDeclarations, IsScalar]

theorem mem_bindingsOf_declarations :
    b ∈ bindingsOf (declarations v) ↔ ∃ leaf ∈ leaves v, Binds leaf b.name b.iri := by
  rw [mem_bindingsOf, declarations, List.mem_flatMap]
  exact exists_congr fun leaf => and_congr_right fun _ => binding_mem_leafDeclarations

/-- A value declares nothing that is out of place or does not agree just if no leaf is a scalar
and no two leaves bind one term to two namespaces. -/
theorem admissible_declarations_iff :
    Admissible [] (declarations v) ↔ (∀ leaf ∈ leaves v, ¬IsScalar leaf) ∧
      ∀ leaf ∈ leaves v, ∀ leaf' ∈ leaves v, ∀ term iri iri',
        Binds leaf term iri → Binds leaf' term iri' → iri = iri' := by
  constructor
  · rintro ⟨hplaced, hagree⟩
    refine ⟨fun leaf hleaf hscalar => ?_, fun leaf hleaf leaf' hleaf' term iri iri' hb hb' => ?_⟩
    · obtain ⟨found, hfound⟩ := misplaced_mem_leafDeclarations.2 hscalar
      exact hplaced found (List.mem_flatMap.2 ⟨leaf, hleaf, hfound⟩)
    · have hmem : ⟨term, iri⟩ ∈ bindingsOf (declarations v) :=
        mem_bindingsOf_declarations.2 ⟨leaf, hleaf, hb⟩
      have hmem' : ⟨term, iri'⟩ ∈ bindingsOf (declarations v) :=
        mem_bindingsOf_declarations.2 ⟨leaf', hleaf', hb'⟩
      exact hagree _ hmem _ hmem' rfl
  · rintro ⟨hscalar, hbinds⟩
    refine ⟨fun found hfound => ?_, fun b hb c hc hname => ?_⟩
    · obtain ⟨leaf, hleaf, hmem⟩ := List.mem_flatMap.1 hfound
      exact hscalar leaf hleaf (misplaced_mem_leafDeclarations.1 ⟨found, hmem⟩)
    · obtain ⟨leaf, hleaf, hb⟩ := mem_bindingsOf_declarations.1 hb
      obtain ⟨leaf', hleaf', hc⟩ := mem_bindingsOf_declarations.1 hc
      rw [← hname] at hc
      exact hbinds leaf hleaf leaf' hleaf' b.name b.iri c.iri hb hc

/-! ## The context of a document -/

theorem get?_eq_some_iff_of_ofDocument (h : ofDocument document = .ok ns) :
    ns.get? term = some iri ↔ ∃ leaf ∈ leaves (contextRoot document), Binds leaf term iri := by
  rw [ofDocument_eq] at h
  obtain ⟨hadmissible, hbindings, -⟩ := declareAll_empty_eq_ok_iff.1 h
  rw [get?_eq_some_iff, hbindings, mem_firsts hadmissible.bindings_agree]
  exact mem_bindingsOf_declarations

/-- Documents whose leaves read alike, but for strings and nulls, give the same; a leaf is read
by its terms in ascending order.  A document is a context just if no leaf is a scalar and no two
leaves bind a term to two namespaces; it binds then what its leaves bind, each prefix in the
place of its first binding, and the last vocabulary remains.  Otherwise it fails with the error
of the first declaration that does not go with those before it. -/
theorem ofDocument_by_leaves (document : Value) :
    (∀ other, List.Forall₂ ReadsAlike ((leaves (contextRoot other)).filter Contributes)
        ((leaves (contextRoot document)).filter Contributes) →
      ofDocument other = ofDocument document) ∧
    (∀ leaf, ((bindingsOf (leafDeclarations leaf)).map Binding.name).Pairwise (· < ·)) ∧
    ((∃ ns, ofDocument document = .ok ns) ↔
      (∀ leaf ∈ leaves (contextRoot document), ¬IsScalar leaf) ∧
      ∀ leaf ∈ leaves (contextRoot document), ∀ leaf' ∈ leaves (contextRoot document),
        ∀ term iri iri', Binds leaf term iri → Binds leaf' term iri' → iri = iri') ∧
    (∀ ns, ofDocument document = .ok ns →
      (∀ term iri, ns.get? term = some iri ↔
        ∃ leaf ∈ leaves (contextRoot document), Binds leaf term iri) ∧
      ns.bindings = firsts (bindingsOf (declarations (contextRoot document))) ∧
      ns.vocabulary = vocabularyOf (declarations (contextRoot document))) ∧
    (∀ e, ofDocument document = .error e ↔
      ∃ before d after, declarations (contextRoot document) = before ++ d :: after ∧
        Admissible [] before ∧ Refuses (bindingsOf before) d e) := by
  refine ⟨fun other halike => ?_, pairwise_bindingsOf_leafDeclarations, ?_,
    fun ns hns => ⟨fun term iri => ?_, ?_⟩, fun e => ?_⟩
  · rw [ofDocument_eq, ofDocument_eq, declarations_congr halike]
  · rw [ofDocument_eq, declareAll_isOk_iff]
    exact admissible_declarations_iff
  · exact get?_eq_some_iff_of_ofDocument hns
  · rw [ofDocument_eq] at hns
    exact (declareAll_empty_eq_ok_iff.1 hns).2
  · rw [ofDocument_eq]
    exact declareAll_eq_error_iff

/-- Contexts in arrays inside arrays, with a reference, an alias of a keyword, a term that is
defined by an object, and a vocabulary that is replaced. -/
def nestedContexts : Value :=
  .object [("@context", .array [.text "http://example.org/remote",
    .object [("part", .text "urn:part/"), ("id", .text "@id"), ("car", .text "urn:car#")],
    .array [.null, .array [.object [("@vocab", .text "urn:old#"), ("car", .text "urn:car#")]],
      .object [("wheel", .object [("@id", .text "urn:wheel")]), ("@vocab", .text "urn:new#"),
        ("van", .text "urn:van#")]]])]

/-- The same contexts one after the other, with terms in another order. -/
def flatContexts : Value :=
  .array [.object [("car", .text "urn:car#"), ("id", .text "@id"), ("part", .text "urn:part/")],
    .object [("@vocab", .text "urn:old#"), ("car", .text "urn:car#")],
    .object [("van", .text "urn:van#"), ("@vocab", .text "urn:new#"),
      ("wheel", .object [("@id", .text "urn:wheel")])]]

/-- A number behind a prefix that is bound twice. -/
def clashingContexts : Value :=
  .array [.object [("car", .text "urn:car#")], .array [.object [("car", .text "urn:van#")]],
    .number (.whole 42)]

theorem ofDocument_by_leaves_nested :
    ofDocument flatContexts = ofDocument nestedContexts ∧
    (∃ ns, ofDocument nestedContexts = .ok ns ∧
      ns.bindings = [⟨"car", "urn:car#"⟩, ⟨"part", "urn:part/"⟩, ⟨"van", "urn:van#"⟩] ∧
      ns.vocabulary = some "urn:new#") ∧
    ofDocument clashingContexts = .error (.prefixCollision "car" "urn:car#" "urn:van#") := by
  obtain ⟨hsame, -, -, hok, -⟩ := ofDocument_by_leaves nestedContexts
  obtain ⟨-, -, -, -, herror⟩ := ofDocument_by_leaves clashingContexts
  have halike : List.Forall₂ ReadsAlike ((leaves (contextRoot flatContexts)).filter Contributes)
      ((leaves (contextRoot nestedContexts)).filter Contributes) :=
    .cons rfl (.cons rfl (.cons rfl .nil))
  refine ⟨hsame _ halike, ⟨_, rfl, (hok _ rfl).2.1, (hok _ rfl).2.2⟩, ?_⟩
  · refine (herror _).2
      ⟨[.binding ⟨"car", "urn:car#"⟩], .binding ⟨"car", "urn:van#"⟩, [.misplaced "42"], rfl, ?_, ?_⟩
    · exact ⟨by simp, by decide⟩
    · exact .collision List.mem_cons_self rfl (by decide)

end Namespaces
end OntologyModel

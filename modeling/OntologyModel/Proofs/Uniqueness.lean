/-
A dataset leaves no choice in what is read of it.

Two true descriptions of one thing are equal: of a shape, of an individual, of an
enumeration, and of a class, except that the descriptions of a class follow the order of
its shapes.
-/
import OntologyModel.Proofs.Enumerations

namespace OntologyModel

open Vocabulary

attribute [ext] PropertyFacts EnumValue EnumFacts

/-! ## Lists with one key for each element -/

namespace Text

variable {α β κ : Type} {key : α → κ} {key' : β → κ} {R : α → β → Prop}

theorem eq_of_pairwise_lt {l l' : List String} (hl : l.Pairwise (· < ·))
    (hl' : l'.Pairwise (· < ·)) (hmem : ∀ x, x ∈ l ↔ x ∈ l') : l = l' :=
  eq_of_ascending strictOrder_before (hl.imp before_iff.2) (hl'.imp before_iff.2) hmem

theorem forall₂_of_map_eq {l : List α} {l' : List β} (hkeys : l.map key = l'.map key')
    (h : ∀ a ∈ l, ∀ b ∈ l', key a = key' b → R a b) : List.Forall₂ R l l' := by
  induction l generalizing l' with
  | nil =>
    rw [List.map_eq_nil_iff.1 hkeys.symm]
    exact .nil
  | cons a l ih =>
    cases l' with
    | nil => exact absurd hkeys (by simp)
    | cons b l' =>
      obtain ⟨hab, hkeys⟩ := List.cons.inj hkeys
      refine .cons (h a List.mem_cons_self b List.mem_cons_self hab) (ih hkeys ?_)
      exact fun a' ha' b' hb' =>
        h a' (List.mem_cons_of_mem a ha') b' (List.mem_cons_of_mem b hb')

end Text

namespace Dataset

variable {d : Dataset} {m : Metadata} {s shape : Node} {p path id classId : String}

/-! ## Values -/

theorem IsValue.unique {v w : Option Node} (hv : d.IsValue s p v) (hw : d.IsValue s p w) :
    v = w := by
  cases v with
  | none =>
    cases w with
    | none => rfl
    | some w => exact absurd (Least.holds hw) (hv w)
  | some v =>
    cases w with
    | none => exact absurd (Least.holds hv) (hw v)
    | some w => exact congrArg some (Least.unique hv hw)

/-- What is made of a value is unique when the value is. -/
theorem IsValue.map_unique {α : Type} {f : Option Node → α} {a b : α}
    (ha : ∃ v, d.IsValue s p v ∧ a = f v) (hb : ∃ v, d.IsValue s p v ∧ b = f v) : a = b := by
  obtain ⟨v, hv, rfl⟩ := ha
  obtain ⟨w, hw, rfl⟩ := hb
  rw [hv.unique hw]

theorem IsCount.unique {n n' : Option UInt64} (hn : d.IsCount s p n) (hn' : d.IsCount s p n') :
    n = n' := by
  cases n with
  | none =>
    cases n' with
    | none => rfl
    | some n' =>
      obtain ⟨v, hv, -⟩ := hn'
      exact absurd hv.holds (hn v)
  | some n =>
    obtain ⟨v, hv, htext⟩ := hn
    cases n' with
    | none => exact absurd hv.holds (hn' v)
    | some n' =>
      obtain ⟨w, hw, htext'⟩ := hn'
      rw [← htext, ← htext', hv.unique hw]

theorem Refers.declares {r : Range} (h : d.Refers id r) : d.Declares id := by
  cases r with
  | enumeration e => exact h.2.1
  | structural c => exact h.2.1
  | datatype iri pattern => exact h.elim

theorem Refers.unique {r r' : Range} (h : d.Refers id r) (h' : d.Refers id r') : r = r' := by
  cases r with
  | datatype iri pattern => exact h.elim
  | enumeration e =>
    cases r' with
    | datatype iri pattern => exact h'.elim
    | enumeration e' => rw [h.1, h'.1]
    | structural c => exact absurd h.2 h'.2.not_isEnumeration
  | structural c =>
    cases r' with
    | datatype iri pattern => exact h'.elim
    | enumeration e => exact absurd h'.2 h.2.not_isEnumeration
    | structural c' => rw [h.1, h'.1]

/-! ## Descriptions -/

theorem GivesRange.unique {r r' : Range} (h : d.GivesRange shape path r)
    (h' : d.GivesRange shape path r') : r = r' := by
  cases h with
  | restricted ht href =>
    cases h' with
    | restricted ht' href' => exact href.unique (ht.unique ht' ▸ href')
    | typed hc' => exact absurd ht.holds (hc' _)
    | declared hc' => exact absurd ht.holds (hc' _)
    | foreign hc' => exact absurd ht.holds (hc' _)
  | typed hc hd hp =>
    cases h' with
    | restricted ht' => exact absurd ht'.holds (hc _)
    | typed _ hd' hp' => rw [hd.unique hd', hp.unique hp']
    | declared _ hd' => exact absurd hd.holds (hd' _)
    | foreign _ hd' => exact absurd hd.holds (hd' _)
  | declared hc hd hv href =>
    cases h' with
    | restricted ht' => exact absurd ht'.holds (hc _)
    | typed _ hd' => exact absurd hd'.holds (hd _)
    | declared _ _ hv' href' => exact href.unique (hv.unique hv' ▸ href')
    | foreign _ _ hv' hno => exact absurd (hv.unique hv' ▸ href.declares) hno
  | foreign hc hd hv hno =>
    cases h' with
    | restricted ht' => exact absurd ht'.holds (hc _)
    | typed _ hd' => exact absurd hd'.holds (hd _)
    | declared _ _ hv' href' => exact absurd href'.declares (hv.unique hv' ▸ hno)
    | foreign _ _ hv' => rw [hv.unique hv']

theorem Describes.unique {f f' : PropertyFacts} (h : d.Describes shape f)
    (h' : d.Describes shape f') : f = f' := by
  have hpath : f.path = f'.path := Node.iri.inj (h.path.unique h'.path)
  refine PropertyFacts.ext hpath (IsValue.map_unique h.givenName h'.givenName) ?_
    (h.minCount.unique h'.minCount) (h.maxCount.unique h'.maxCount) ?_
  · exact IsValue.map_unique h.comment (hpath ▸ h'.comment)
  · exact h.range.unique (hpath ▸ h'.range)

theorem DescribesValue.unique {v v' : EnumValue} (h : d.DescribesValue classId v)
    (h' : d.DescribesValue classId v') (hid : v.id = v'.id) : v = v' := by
  refine EnumValue.ext hid ?_ (IsValue.map_unique h.comment (hid ▸ h'.comment))
  obtain ⟨label, hlabel, hname⟩ := h.name
  obtain ⟨label', hlabel', hname'⟩ := h'.name
  rw [← hid] at hlabel' hname'
  rw [hname, hname', hlabel.unique hlabel']

theorem DescribesEnum.unique {e e' : EnumFacts} (h : d.DescribesEnum e) (h' : d.DescribesEnum e')
    (hid : e.id = e'.id) : e = e' := by
  have hids : e.values.map EnumValue.id = e'.values.map EnumValue.id := by
    refine Text.eq_of_pairwise_lt h.values_ascending h'.values_ascending fun i => ?_
    rw [h.mem_ids, h'.mem_ids, hid]
  have hvalues : List.Forall₂ Eq e.values e'.values := by
    refine Text.forall₂_of_map_eq hids fun v hv v' hv' => ?_
    exact (h.values v hv).unique (hid ▸ h'.values v' hv')
  rw [List.forall₂_eq_eq_eq] at hvalues
  exact EnumFacts.ext hid hvalues (IsValue.map_unique h.comment (hid ▸ h'.comment))

theorem IsRefable.unique {r r' : Refable} (h : d.IsRefable m id r) (h' : d.IsRefable m id r') :
    r = r' := by
  rcases h with ⟨hlacks, hr⟩ | ⟨v, hv, hword⟩
  · rcases h' with ⟨-, hr'⟩ | ⟨v', hv', -⟩
    · rw [hr, hr']
    · exact absurd hv'.holds (hlacks v')
  · rcases h' with ⟨hlacks, -⟩ | ⟨v', hv', hword'⟩
    · exact absurd hv.holds (hlacks v)
    · have hsome := Refable.ofWord?_word r
      rw [hword, hv.unique hv', ← hword', Refable.ofWord?_word] at hsome
      exact (Option.some.inj hsome).symm

end Dataset
end OntologyModel

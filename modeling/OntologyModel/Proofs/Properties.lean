/-
The order of the properties of a class.

Properties are ordered by path and then by name, and nothing else of them is looked at:
two properties with one path and one name keep the places that their shapes have.
-/
import OntologyModel.Proofs.Names

namespace OntologyModel

open Text (StrictOrder Ranking)

namespace Property

/-- What the order of properties looks at. -/
def key (p : Property) : String × String := (p.path, p.name)

def keyBefore : String × String → String × String → Bool := Text.lex Text.before Text.before

theorem before_eq (a b : Property) : before a b = keyBefore a.key b.key := rfl

theorem strictOrder_keyBefore : StrictOrder keyBefore :=
  Text.strictOrder_before.lex Text.strictOrder_before

theorem ranking_before : Ranking before := strictOrder_keyBefore.ranking key

variable {ps qs : List Property}

theorem map_key_sortStable_eq (h : (ps.map key).Perm (qs.map key)) :
    (Text.sortStable before ps).map key = (Text.sortStable before qs).map key :=
  Text.map_sortStable_eq_of_perm ranking_before strictOrder_keyBefore key (fun _ _ => id) h

theorem map_path_sortStable_eq (h : (ps.map path).Perm (qs.map path)) :
    (Text.sortStable before ps).map path = (Text.sortStable before qs).map path := by
  refine Text.map_sortStable_eq_of_perm ranking_before Text.strictOrder_before path ?_ h
  intro a b hab
  exact (Bool.or_eq_false_iff.1 hab).1

/-- The order leaves no trace of places where properties of one key are equal. -/
theorem sortStable_eq_of_perm (h : ps.Perm qs)
    (hkey : ∀ p ∈ ps, ∀ q ∈ ps, p.key = q.key → p = q) :
    Text.sortStable before ps = Text.sortStable before qs :=
  Text.sortStable_eq_of_perm ranking_before h fun p hp q hq hpq hqp =>
    hkey p hp q hq (strictOrder_keyBefore.connected hpq hqp)

/-- Lists that are in step by key, and are equal once they are sorted, were equal before:
properties of one key keep the places that they have among themselves. -/
theorem eq_of_sortStable_eq {ι : Type} {l : List ι} {g g' : ι → Property}
    (hkey : ∀ i ∈ l, (g i).key = (g' i).key)
    (h : Text.sortStable before (l.map g) = Text.sortStable before (l.map g')) :
    ∀ i ∈ l, g i = g' i := by
  intro i hi
  have hties (a b : Property) (ha : decide (a.key = (g i).key) = true)
      (hb : decide (b.key = (g i).key) = true) : before a b = false := by
    rw [before_eq, of_decide_eq_true ha, of_decide_eq_true hb]
    exact strictOrder_keyBefore.irrefl _
  have hkept := congrArg (List.filter fun p => p.key = (g i).key) h
  rw [Text.filter_sortStable hties, Text.filter_sortStable hties, List.filter_map,
    List.filter_map] at hkept
  have hsame : l.filter ((fun p => decide (p.key = (g i).key)) ∘ g') =
      l.filter ((fun p => decide (p.key = (g i).key)) ∘ g) := by
    refine List.filter_congr fun j hj => ?_
    rw [Function.comp, Function.comp, hkey j hj]
  rw [hsame] at hkept
  exact List.map_inj_left.1 hkept i (List.mem_filter.2 ⟨hi, decide_eq_true rfl⟩)

end Property

namespace PropertyFacts

theorem perm_orderedIn (context : String → String) (classId : String) (fs : List PropertyFacts) :
    (orderedIn context classId fs).Perm (fs.map (namedIn context classId)) :=
  Text.perm_sortStable _ _

end PropertyFacts
end OntologyModel

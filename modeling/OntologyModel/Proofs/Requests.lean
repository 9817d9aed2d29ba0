/-
Short names asked for one after the other.

A table answers from what it remembers, whatever was asked of it before and with whatever
fallback: each request of a run has the answer that a fresh table gives.  All that a run
leaves behind is how many identifiers the table knows, which is the number of different
ones that were asked for.
-/
import OntologyModel.Proofs.Names
import Mathlib.Data.List.Dedup

namespace OntologyModel

variable {context : String → String}

/-! ## What a table knows -/

namespace NameTable

variable {t : NameTable} {seen : List String}

def ids (t : NameTable) : List String := t.known.map Prod.fst

/-- A table knows just the identifiers of a list, each of them once. -/
structure Remembers (t : NameTable) (seen : List String) : Prop where
  nodup : t.ids.Nodup
  mem_iff : ∀ id, id ∈ t.ids ↔ id ∈ seen

theorem remembers_ofContext (context : String → String) : (ofContext context).Remembers [] :=
  ⟨List.nodup_nil, fun _ => Iff.rfl⟩

theorem Remembers.size_eq (h : t.Remembers seen) : t.size = seen.dedup.length := by
  have hperm : t.ids.Perm seen.dedup := by
    rw [List.perm_ext_iff_of_nodup h.nodup seen.nodup_dedup]
    intro id
    rw [h.mem_iff, List.mem_dedup]
  have hlength := hperm.length_eq
  rwa [ids, List.length_map] at hlength

theorem lookup_of_mem {id : String} (h : id ∈ t.ids) : (t.lookup id).2 = t := by
  rw [lookup]
  cases hlookup : t.known.lookup id with
  | some short => rfl
  | none =>
    obtain ⟨e, he, rfl⟩ := List.mem_map.1 h
    have hother := List.lookup_eq_none_iff.1 hlookup e he
    simp at hother

theorem ids_lookup_of_notMem {id : String} (h : id ∉ t.ids) :
    (t.lookup id).2.ids = t.ids ++ [id] := by
  rw [lookup]
  cases hlookup : t.known.lookup id with
  | some short =>
    obtain ⟨l, l', hl, -⟩ := List.lookup_eq_some_iff.1 hlookup
    have hmem : id ∈ t.ids := by simp [ids, hl]
    exact absurd hmem h
  | none => simp [ids]

theorem Remembers.lookup (h : t.Remembers seen) (id : String) :
    (t.lookup id).2.Remembers (seen ++ [id]) := by
  by_cases hid : id ∈ t.ids
  · rw [lookup_of_mem hid]
    refine ⟨h.nodup, fun x => ?_⟩
    have hseen : id ∈ seen := (h.mem_iff id).1 hid
    rw [h.mem_iff, List.mem_append, List.mem_singleton]
    constructor
    · intro hx
      exact .inl hx
    · rintro (hx | rfl)
      · exact hx
      · exact hseen
  · refine ⟨?_, fun x => ?_⟩
    · rw [ids_lookup_of_notMem hid, ← List.concat_eq_append]
      exact h.nodup.concat hid
    · rw [ids_lookup_of_notMem hid, List.mem_append, List.mem_append, h.mem_iff]

end NameTable

/-! ## What a naming asks for -/

namespace Naming

variable {α β : Type}

/-- Whatever a table knows before a naming, it knows some identifiers more after it. -/
def Asks (x : Naming α) (ids : List String) : Prop :=
  ∀ (t : NameTable) (seen : List String), t.Remembers seen → (x.run t).2.Remembers (seen ++ ids)

theorem asks_pure (a : α) : Asks (pure a) [] := by
  intro t seen h
  rw [List.append_nil]
  exact h

theorem Asks.bind {x : Naming α} {k : α → Naming β} {ids ids' : List String} (hx : Asks x ids)
    (hk : ∀ a, Asks (k a) ids') : Asks (x >>= k) (ids ++ ids') := by
  intro t seen h
  have hrest := hk (x.run t).1 _ _ (hx t seen h)
  rw [List.append_assoc] at hrest
  exact hrest

theorem Asks.map {x : Naming α} {ids : List String} (hx : Asks x ids) (f : α → β) :
    Asks (x >>= fun a => pure (f a)) ids := by
  have h := hx.bind fun a => asks_pure (f a)
  rwa [List.append_nil] at h

/-- What is named one after the other asks for what each of it asks for. -/
theorem Asks.all {x : α → Naming β} {all : List α → Naming (List β)} {asked : α → List String}
    (hx : ∀ a, Asks (x a) (asked a)) (hnil : all [] = pure [])
    (hcons : ∀ a l, all (a :: l) = do
      let b ← x a
      return b :: (← all l))
    (l : List α) : Asks (all l) (l.flatMap asked) := by
  induction l with
  | nil =>
    rw [hnil]
    exact asks_pure []
  | cons a l ih =>
    rw [hcons, List.flatMap_cons]
    exact (hx a).bind fun b => ih.map _

theorem compact_asks (id : String) : Asks (compact id) [id] := fun _ _ h => h.lookup id

theorem compactOr_asks (id fallback : String) : Asks (compactOr id fallback) [id] :=
  (compact_asks id).map _

theorem className_asks (id : String) : Asks (className id) [id] :=
  (compact_asks id).map _

/-! ## Names without colons -/

theorem toList_withoutColons (s : String) :
    (withoutColons s).toList = s.toList.map fun c => if c = ':' then '_' else c := by
  rw [withoutColons, String.toList_ofList]

theorem colon_notMem_withoutColons (s : String) : ':' ∉ (withoutColons s).toList := by
  rw [toList_withoutColons]
  intro h
  obtain ⟨c, -, hc⟩ := List.mem_map.1 h
  by_cases hcolon : c = ':'
  · simp [hcolon] at hc
  · simp [hcolon] at hc

theorem length_withoutColons (s : String) : (withoutColons s).length = s.length := by
  rw [← String.length_toList, toList_withoutColons, List.length_map, String.length_toList]

/-! ## Runs of requests -/

inductive Request where
  | compact (id : String)
  | compactOr (id fallback : String)
  | className (id : String)

namespace Request

def id : Request → String
  | .compact id => id
  | .compactOr id _ => id
  | .className id => id

def perform : Request → Naming String
  | .compact id => Naming.compact id
  | .compactOr id fallback => Naming.compactOr id fallback
  | .className id => Naming.className id

def answer (context : String → String) : Request → String
  | .compact id => context id
  | .compactOr id fallback => compactOrIn context id fallback
  | .className id => withoutColons (context id)

theorem perform_yields (r : Request) : Yields context r.perform (r.answer context) := by
  cases r with
  | compact id => exact compact_yields id
  | compactOr id fallback => exact compactOr_yields id fallback
  | className id => exact className_yields id

theorem perform_asks (r : Request) : Asks r.perform [r.id] := by
  cases r with
  | compact id => exact compact_asks id
  | compactOr id fallback => exact compactOr_asks id fallback
  | className id => exact className_asks id

/-- Without anything remembered, a request is answered by the context. -/
theorem perform_fresh (r : Request) :
    (r.perform.run (.ofContext context)).1 = r.answer context :=
  (r.perform_yields _ (NameTable.faithful_ofContext context)).1

end Request

def performAll : List Request → Naming (List String)
  | [] => return []
  | r :: rest => do
    let s ← r.perform
    return s :: (← performAll rest)

theorem performAll_yields (rs : List Request) :
    Yields context (performAll rs) (rs.map (Request.answer context)) := by
  induction rs with
  | nil => exact yields_pure []
  | cons r rest ih => exact r.perform_yields.bind (ih.bind (yields_pure _))

theorem performAll_asks (rs : List Request) : Asks (performAll rs) (rs.map Request.id) := by
  rw [List.map_eq_flatMap]
  exact Asks.all Request.perform_asks rfl (fun _ _ => rfl) rs

/-- A table is never noticed.  Every request of a run has the answer of a fresh table, which
is the short form that the context gives, the fallback if that is no short form, or the
short form without colons; and after the run the table knows as many identifiers as
different ones were asked for. -/
theorem performAll_as_if_fresh (context : String → String) (rs : List Request) :
    ((performAll rs).run (.ofContext context)).1 =
        rs.map (fun r => (r.perform.run (.ofContext context)).1) ∧
      ((performAll rs).run (.ofContext context)).2.size = (rs.map Request.id).dedup.length ∧
      ∀ id fallback,
        ((compact id).run (.ofContext context)).1 = context id ∧
        ((compactOr id fallback).run (.ofContext context)).1 =
          (if context id = id then fallback else context id) ∧
        ∃ s, ((className id).run (.ofContext context)).1 = s ∧
          s.toList = (context id).toList.map (fun c => if c = ':' then '_' else c) ∧
          ':' ∉ s.toList ∧ s.length = (context id).length := by
  have hfresh := NameTable.faithful_ofContext context
  refine ⟨?_, ?_, fun id fallback => ⟨?_, ?_, withoutColons (context id), ?_, ?_, ?_, ?_⟩⟩
  · rw [(performAll_yields rs _ hfresh).1]
    refine List.map_congr_left fun r _ => ?_
    exact r.perform_fresh.symm
  · exact (performAll_asks rs _ _ (NameTable.remembers_ofContext context)).size_eq
  · exact (compact_yields id _ hfresh).1
  · exact (compactOr_yields id fallback _ hfresh).1
  · exact (className_yields id _ hfresh).1
  · exact toList_withoutColons (context id)
  · exact colon_notMem_withoutColons (context id)
  · exact length_withoutColons (context id)

/-- A fallback is not remembered in place of the short form. -/
example :
    (performAll [.compactOr "urn:size" "size", .compactOr "urn:size" "extent",
      .compact "urn:size", .className "urn:size"]).run (.ofContext fun t => t) =
      (["size", "extent", "urn:size", "urn_size"],
        ⟨fun t => t, [("urn:size", "urn:size")]⟩) := rfl

end Naming
end OntologyModel

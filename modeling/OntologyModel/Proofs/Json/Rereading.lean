/-
Printed values are read back.

`tokens` says which tokens stand in the text of a value, without the blanks that the
printer puts between them.  The text is cut into these tokens, and from these tokens the
value is read.  Both hold of values whose numbers are counts and that are not nested too
deep for the reader; `Plain` follows such a value down.
-/
import OntologyModel.Proofs.Json.Scanning

namespace OntologyModel
namespace Json
namespace Value

/-! ## Tokens of a value -/

mutual
def tokens : Value → List Token
  | .array [] => [.mark '[', .mark ']']
  | .array (v :: items) => .mark '[' :: (tokens v ++ (itemTokens items ++ [.mark ']']))
  | .object [] => [.mark '\x7b', .mark '\x7d']
  | .object ((n, v) :: members) =>
    .mark '\x7b' :: .leaf (.text n) :: .mark ':' ::
      (tokens v ++ (memberTokens members ++ [.mark '\x7d']))
  | v => [.leaf v]

def itemTokens : List Value → List Token
  | [] => []
  | v :: rest => .mark ',' :: (tokens v ++ itemTokens rest)

def memberTokens : List (String × Value) → List Token
  | [] => []
  | (n, v) :: rest =>
    .mark ',' :: .leaf (.text n) :: .mark ':' :: (tokens v ++ memberTokens rest)
end

/-- Values whose numbers are counts, nested at most `depth` deep. -/
inductive Plain : Nat → Value → Prop
  | null {depth : Nat} : Plain depth .null
  | bool {depth : Nat} (b : Bool) : Plain depth (.bool b)
  | count {depth n : Nat} (h : n < UInt64.size) : Plain depth (.number (.whole n))
  | text {depth : Nat} (s : String) : Plain depth (.text s)
  | array {depth : Nat} {items : List Value} (h : ∀ v ∈ items, Plain depth v) :
    Plain (depth + 1) (.array items)
  | object {depth : Nat} {members : List (String × Value)} (h : ∀ m ∈ members, Plain depth m.2) :
    Plain (depth + 1) (.object members)

/-! ## From text to tokens -/

open Token (Yields Delimited)

variable {rest : List Char} {depth : Nat} {v : Value}

theorem delimited_newline (level : Nat) (text : List Char) : Delimited (newline level ++ text) :=
  ⟨'\n', _, rfl, .inr rfl⟩

theorem delimited_prettyItems (level : Nat) (h : Delimited rest) (items : List Value) :
    Delimited (prettyItems level items ++ rest) := by
  cases items with
  | nil => exact h
  | cons v items => exact ⟨',', _, rfl, .inl rfl⟩

theorem delimited_prettyMembers (level : Nat) (h : Delimited rest)
    (members : List (String × Value)) :
    Delimited (prettyMembers level members ++ rest) := by
  cases members with
  | nil => exact h
  | cons m members => exact ⟨',', _, rfl, .inl rfl⟩

theorem pretty_count (level n : Nat) :
    pretty level (.number (.whole n)) = Nat.toDigits 10 n := by
  show (String.ofList _).toList = _
  rw [String.toList_ofList]

/-- The text of a value yields its tokens, whatever comes after it. -/
def Scans (v : Value) : Prop :=
  ∀ level rest, Delimited rest → Yields (pretty level v) (tokens v) rest

theorem yields_prettyItems (level : Nat) {items : List Value} (h : ∀ v ∈ items, v.Scans)
    (hrest : Delimited rest) : Yields (prettyItems level items) (itemTokens items) rest := by
  induction items with
  | nil => exact Yields.blanks fun _ hc => absurd hc List.not_mem_nil
  | cons v items ih =>
    have htail := ih fun w hw => h w (List.mem_cons_of_mem v hw)
    have hvalue := h v List.mem_cons_self (level + 1) _ (delimited_prettyItems level hrest items)
    exact (Yields.mark rfl).append ((Yields.newline _).append (hvalue.append htail))

theorem yields_prettyMembers (level : Nat) {members : List (String × Value)}
    (h : ∀ m ∈ members, m.2.Scans) (hrest : Delimited rest) :
    Yields (prettyMembers level members) (memberTokens members) rest := by
  induction members with
  | nil => exact Yields.blanks fun _ hc => absurd hc List.not_mem_nil
  | cons m members ih =>
    obtain ⟨n, v⟩ := m
    have htail := ih fun w hw => h w (List.mem_cons_of_mem _ hw)
    have hvalue := h (n, v) List.mem_cons_self (level + 1) _
      (delimited_prettyMembers level hrest members)
    exact (Yields.mark rfl).append ((Yields.newline _).append ((Yields.quote n).append
      ((Yields.mark rfl).append ((Yields.blank rfl).append (hvalue.append htail)))))

theorem Plain.scans (h : Plain depth v) : v.Scans := by
  induction h with
  | null => exact fun _ _ _ => Yields.null
  | bool b => exact fun level _ _ => Yields.bool level b
  | @count _ n hn =>
    intro level rest hrest
    rw [pretty_count]
    exact Yields.count hn hrest
  | text s => exact fun _ _ _ => Yields.quote s
  | @array depth items _ ih =>
    intro level rest hrest
    cases items with
    | nil => exact (Yields.mark (c := '[') rfl).append (Yields.mark rfl)
    | cons v items =>
      -- The bracket stands on a line of its own, which delimits the last item.
      have hclose : Yields (newline level ++ [']']) [.mark ']'] rest :=
        (Yields.newline level).append (Yields.mark rfl)
      have hend := delimited_newline level ([']'] ++ rest)
      rw [← List.append_assoc] at hend
      have hitems := yields_prettyItems level
        (fun w hw => ih w (List.mem_cons_of_mem v hw)) hend
      have hvalue := ih v List.mem_cons_self (level + 1) _ (delimited_prettyItems level hend items)
      rw [← List.append_assoc] at hvalue
      exact (Yields.mark rfl).append ((Yields.newline _).append
        (hvalue.append (hitems.append hclose)))
  | @object depth members _ ih =>
    intro level rest hrest
    cases members with
    | nil => exact (Yields.mark (c := '\x7b') rfl).append (Yields.mark rfl)
    | cons m members =>
      obtain ⟨n, v⟩ := m
      have hclose : Yields (newline level ++ ['\x7d']) [.mark '\x7d'] rest :=
        (Yields.newline level).append (Yields.mark rfl)
      have hend := delimited_newline level (['\x7d'] ++ rest)
      rw [← List.append_assoc] at hend
      have hmembers := yields_prettyMembers level
        (fun w hw => ih w (List.mem_cons_of_mem _ hw)) hend
      have hvalue := ih (n, v) List.mem_cons_self (level + 1) _
        (delimited_prettyMembers level hend members)
      rw [← List.append_assoc] at hvalue
      exact (Yields.mark rfl).append ((Yields.newline _).append ((Yields.quote n).append
        ((Yields.mark rfl).append ((Yields.blank rfl).append
          (hvalue.append (hmembers.append hclose))))))

/-! ## From tokens to values -/

/-- A value is read from its tokens with no more fuel than there are tokens. -/
def Rereads (depth : Nat) (v : Value) : Prop :=
  ∀ fuel rest, (tokens v).length ≤ fuel → read fuel depth (tokens v ++ rest) = some (v, rest)

theorem exists_tokens_eq_cons (v : Value) : ∃ t ts, tokens v = t :: ts ∧ t ≠ .mark ']' := by
  match v with
  | .null | .bool _ | .number _ | .text _ => exact ⟨_, _, rfl, nofun⟩
  | .array [] | .array (_ :: _) => exact ⟨_, _, rfl, by simp⟩
  | .object [] | .object (_ :: _) => exact ⟨_, _, rfl, by simp⟩

theorem read_array {t : Token} (ht : t ≠ .mark ']') (ts : List Token) (fuel : Nat) :
    read (fuel + 1) (depth + 1) (.mark '[' :: t :: ts) =
      (readItems fuel depth [] (t :: ts)).map fun (vs, rest) => (.array vs, rest) := by
  rw [read]
  exact fun _ h => ht (List.cons.inj h).1

theorem readItems_tokens {v : Value} {items : List Value} (h : ∀ w ∈ v :: items, w.Rereads depth)
    (fuel : Nat) (done : List Value) (rest : List Token)
    (hf : (tokens v).length + (itemTokens items).length < fuel) :
    readItems fuel depth done (tokens v ++ (itemTokens items ++ .mark ']' :: rest)) =
      some (done.reverse ++ v :: items, rest) := by
  induction items generalizing v fuel done with
  | nil =>
    obtain ⟨fuel, rfl⟩ : ∃ k, fuel = k + 1 := ⟨fuel - 1, by omega⟩
    rw [readItems, h v List.mem_cons_self fuel _ (by omega)]
    simp only [itemTokens, List.nil_append, List.reverse_cons]
  | cons w items ih =>
    obtain ⟨fuel, rfl⟩ : ∃ k, fuel = k + 1 := ⟨fuel - 1, by omega⟩
    simp only [itemTokens, List.length_cons, List.length_append] at hf
    rw [readItems, h v List.mem_cons_self fuel _ (by omega)]
    simp only [itemTokens, List.cons_append, List.append_assoc]
    rw [ih (fun u hu => h u (List.mem_cons_of_mem v hu)) fuel _ (by omega), List.reverse_cons,
      List.append_assoc, List.singleton_append]

theorem readMembers_tokens {n : String} {v : Value} {members : List (String × Value)}
    (h : ∀ m ∈ (n, v) :: members, m.2.Rereads depth) (fuel : Nat)
    (done : List (String × Value)) (rest : List Token)
    (hf : (tokens v).length + (memberTokens members).length < fuel) :
    readMembers fuel depth done (.leaf (.text n) :: .mark ':' ::
        (tokens v ++ (memberTokens members ++ .mark '\x7d' :: rest))) =
      some (done.reverse ++ (n, v) :: members, rest) := by
  induction members generalizing n v fuel done with
  | nil =>
    obtain ⟨fuel, rfl⟩ : ∃ k, fuel = k + 1 := ⟨fuel - 1, by omega⟩
    rw [readMembers, h (n, v) List.mem_cons_self fuel _ (by simp only; omega)]
    simp only [memberTokens, List.nil_append, List.reverse_cons]
  | cons m members ih =>
    obtain ⟨k, w⟩ := m
    obtain ⟨fuel, rfl⟩ : ∃ k, fuel = k + 1 := ⟨fuel - 1, by omega⟩
    simp only [memberTokens, List.length_cons, List.length_append] at hf
    rw [readMembers, h (n, v) List.mem_cons_self fuel _ (by simp only; omega)]
    simp only [memberTokens, List.cons_append, List.append_assoc]
    rw [ih (fun u hu => h u (List.mem_cons_of_mem _ hu)) fuel _ (by omega), List.reverse_cons,
      List.append_assoc, List.singleton_append]

theorem rereads_leaf {v : Value} (hv : tokens v = [.leaf v]) : v.Rereads depth := by
  intro fuel rest hf
  rw [hv, List.length_singleton] at hf
  obtain ⟨fuel, rfl⟩ : ∃ k, fuel = k + 1 := ⟨fuel - 1, by omega⟩
  rw [hv, List.singleton_append, read]
  exact Nat.succ_ne_zero fuel

theorem Plain.rereads (h : Plain depth v) : v.Rereads depth := by
  induction h with
  | null => exact rereads_leaf rfl
  | bool b => exact rereads_leaf rfl
  | count hn => exact rereads_leaf rfl
  | text s => exact rereads_leaf rfl
  | @array depth items _ ih =>
    intro fuel rest hf
    cases items with
    | nil =>
      simp only [tokens, List.length_cons] at hf
      obtain ⟨fuel, rfl⟩ : ∃ k, fuel = k + 1 := ⟨fuel - 1, by omega⟩
      rw [tokens, List.cons_append, List.singleton_append, read]
    | cons v items =>
      simp only [tokens, List.length_cons, List.length_append] at hf
      obtain ⟨fuel, rfl⟩ : ∃ k, fuel = k + 1 := ⟨fuel - 1, by omega⟩
      have hitems := readItems_tokens ih fuel [] rest (by omega)
      obtain ⟨t, ts, hts, ht⟩ := exists_tokens_eq_cons v
      simp only [tokens, List.cons_append, List.append_assoc, List.nil_append]
      rw [hts] at hitems ⊢
      rw [List.cons_append] at hitems ⊢
      rw [read_array ht, hitems]
      rfl
  | @object depth members _ ih =>
    intro fuel rest hf
    cases members with
    | nil =>
      simp only [tokens, List.length_cons] at hf
      obtain ⟨fuel, rfl⟩ : ∃ k, fuel = k + 1 := ⟨fuel - 1, by omega⟩
      rw [tokens, List.cons_append, List.singleton_append, read]
    | cons m members =>
      obtain ⟨n, v⟩ := m
      simp only [tokens, List.length_cons, List.length_append] at hf
      obtain ⟨fuel, rfl⟩ : ∃ k, fuel = k + 1 := ⟨fuel - 1, by omega⟩
      have hmembers := readMembers_tokens ih fuel [] rest (by omega)
      simp only [tokens, List.cons_append, List.append_assoc, List.nil_append]
      rw [read, hmembers]
      · rfl
      · exact fun _ h => nomatch (List.cons.inj h).1

/-- The printed text of a value is read as that value. -/
theorem parse?_pretty (h : Plain maxDepth v) :
    parse? (String.ofList (pretty 0 v ++ ['\n'])) = some v := by
  obtain ⟨fuel, hf, hscan⟩ := h.scans 0 ['\n'] ⟨'\n', [], rfl, .inr rfl⟩
    (pretty 0 v ++ ['\n']).length [] (Nat.le_of_eq List.length_append.symm)
  obtain ⟨fuel, rfl⟩ : ∃ k, fuel = k + 1 := ⟨fuel - 1, by rw [List.length_singleton] at hf; omega⟩
  have hend (done : List Token) : Token.scan (fuel + 1) done ['\n'] = some done.reverse := by
    cases fuel <;> rfl
  rw [hend, List.append_nil, List.reverse_reverse] at hscan
  have hread := h.rereads (2 * (tokens v).length + 1) [] (by omega)
  rw [List.append_nil] at hread
  rw [parse?, String.toList_ofList, hscan]
  dsimp only
  rw [hread]

end Value
end Json
end OntologyModel

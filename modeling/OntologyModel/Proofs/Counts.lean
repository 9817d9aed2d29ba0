/-
Which texts are read as counts.

A text writes a number if it consists of decimal digits, each worth ten times the one behind it,
and perhaps a plus sign in front.  Counts are read by the value of their digits, so that the
number of leading zeros does not matter, and a number of more than 64 bits is refused by its
value.  A reader that works on words of 64 bits and stops at the first multiplication or addition
that overflows reads the same: with every digit the value stays the same or grows, so that what
has overflowed once is too large in the end.
-/
import OntologyModel.Model.Shape
import OntologyModel.Proofs.Inquiry
import OntologyModel.Proofs.Json.Scanning
import OntologyModel.Proofs.Uniqueness
import Mathlib.Data.List.Induction

namespace OntologyModel
namespace Count

variable {c : Char} {s : List Char} {t : String} {m n : Nat}

/-! ## Digits -/

/-- Digits that stand for a number. -/
inductive Denotes : List Char → Nat → Prop
  | digit {d : Nat} (hd : d < 10) : Denotes [d.digitChar] d
  | append {s : List Char} {n d : Nat} (hs : Denotes s n) (hd : d < 10) :
    Denotes (s ++ [d.digitChar]) (10 * n + d)

theorem isDigit_digitChar : ∀ d < 10, d.digitChar.isDigit = true := by decide

theorem toNat_digitChar : ∀ d < 10, d.digitChar.toNat - '0'.toNat = d := by decide

theorem digitChar_eq_ofNat : ∀ d < 10, d.digitChar = Char.ofNat (d + 48) := by decide

theorem exists_digitChar (h : c.isDigit = true) : ∃ d < 10, d.digitChar = c := by
  simp only [Char.isDigit, UInt32.le_iff_toNat_le, Bool.and_eq_true, decide_eq_true_eq] at h
  have hlow : 48 ≤ c.toNat := h.1
  have hhigh : c.toNat ≤ 57 := h.2
  refine ⟨c.toNat - 48, by omega, ?_⟩
  rw [digitChar_eq_ofNat _ (by omega), Nat.sub_add_cancel hlow, Char.ofNat_toNat]

theorem naturalOfDigits_append (s : List Char) (c : Char) :
    Decimal.naturalOfDigits (s ++ [c]) =
      10 * Decimal.naturalOfDigits s + (c.toNat - '0'.toNat) := by
  rw [Decimal.naturalOfDigits, List.foldl_append]
  rfl

theorem ofDigits?_eq_some_iff :
    ofDigits? s = some n ↔
      s ≠ [] ∧ (∀ c ∈ s, c.isDigit = true) ∧ Decimal.naturalOfDigits s = n := by
  rw [ofDigits?]
  cases s <;> simp [and_assoc]

theorem denotes_of_digits (hne : s ≠ []) (hdigits : ∀ c ∈ s, c.isDigit = true) :
    Denotes s (Decimal.naturalOfDigits s) := by
  induction s using List.reverseRecOn with
  | nil => exact absurd rfl hne
  | append_singleton s c ih =>
    obtain ⟨d, hd, rfl⟩ := exists_digitChar (hdigits c (by simp))
    rw [naturalOfDigits_append, toNat_digitChar d hd]
    by_cases hs : s = []
    · rw [hs]
      show Denotes [d.digitChar] (10 * 0 + d)
      rw [Nat.mul_zero, Nat.zero_add]
      exact .digit hd
    · exact .append (ih hs fun c hc => hdigits c (List.mem_append_left _ hc)) hd

/-- Digits are read as the number that they stand for. -/
theorem denotes_iff : Denotes s n ↔ ofDigits? s = some n := by
  rw [ofDigits?_eq_some_iff]
  constructor
  · intro h
    induction h with
    | @digit d hd =>
      refine ⟨List.cons_ne_nil _ _, fun c hc => ?_, ?_⟩
      · rw [List.mem_singleton.1 hc]
        exact isDigit_digitChar d hd
      · rw [← List.nil_append [d.digitChar], naturalOfDigits_append, toNat_digitChar d hd]
        exact Nat.zero_add d
    | @append s n d _ hd ih =>
      obtain ⟨-, hdigits, hvalue⟩ := ih
      refine ⟨List.append_ne_nil_of_right_ne_nil _ (List.cons_ne_nil _ _), fun c hc => ?_, ?_⟩
      · rcases List.mem_append.1 hc with hc | hc
        · exact hdigits c hc
        · rw [List.mem_singleton.1 hc]
          exact isDigit_digitChar d hd
      · rw [naturalOfDigits_append, toNat_digitChar d hd, hvalue]
  · rintro ⟨hne, hdigits, rfl⟩
    exact denotes_of_digits hne hdigits

theorem Denotes.isDigit (h : Denotes s n) : ∀ c ∈ s, c.isDigit = true :=
  (ofDigits?_eq_some_iff.1 (denotes_iff.1 h)).2.1

theorem Denotes.zero_cons (h : Denotes s n) : Denotes ('0' :: s) n := by
  induction h with
  | @digit d hd =>
    have hzero : Denotes ['0'] 0 := .digit (Nat.zero_lt_succ 9)
    have hdigits := hzero.append hd
    rwa [Nat.mul_zero, Nat.zero_add] at hdigits
  | append _ hd ih => exact .append ih hd

/-- Zeros in front make no difference. -/
theorem Denotes.zeros (h : Denotes s n) (k : Nat) : Denotes (List.replicate k '0' ++ s) n := by
  induction k with
  | zero => exact h
  | succ k ih => exact ih.zero_cons

/-! ## Texts -/

/-- A text is digits for a number, or a plus sign and digits for it. -/
inductive Writes (t : String) (n : Nat) : Prop
  | plain (digits : Denotes t.toList n)
  | signed {s : List Char} (sign : t.toList = '+' :: s) (digits : Denotes s n)

theorem dropPlus_eq_self (h : ∀ s', s ≠ '+' :: s') : dropPlus s = s := by
  rw [dropPlus.eq_def]
  split
  · exact absurd rfl (h _)
  · rfl

theorem writes_iff : Writes t n ↔ ofDigits? (dropPlus t.toList) = some n := by
  rw [← denotes_iff]
  by_cases hsign : ∃ s, t.toList = '+' :: s
  · obtain ⟨s, hs⟩ := hsign
    rw [hs, dropPlus]
    constructor
    · rintro (digits | ⟨sign, digits⟩)
      · rw [hs] at digits
        exact absurd (digits.isDigit '+' List.mem_cons_self) (by decide)
      · rw [hs, List.cons.injEq] at sign
        exact sign.2 ▸ digits
    · exact .signed hs
  · rw [dropPlus_eq_self (not_exists.1 hsign)]
    constructor
    · rintro (digits | ⟨sign, -⟩)
      · exact digits
      · exact absurd ⟨_, sign⟩ hsign
    · exact .plain

theorem Writes.unique (h : Writes t m) (h' : Writes t n) : m = n := by
  rw [writes_iff] at h h'
  rw [h] at h'
  exact Option.some.inj h'

/-- A word is given just for the numbers that it can stand for. -/
theorem checked_eq_some_iff {v w : UInt64} (h : n < UInt64.size → v.toNat = n) :
    (if n < UInt64.size then some v else none) = some w ↔ n = w.toNat := by
  by_cases hn : n < UInt64.size
  · rw [if_pos hn, Option.some.injEq, ← UInt64.toNat_inj, h hn]
  · rw [if_neg hn]
    refine iff_of_false (by simp) fun heq => hn ?_
    rw [heq]
    exact w.toNat_lt

theorem ofText?_eq_some_iff {w : UInt64} : ofText? t = some w ↔ Writes t w.toNat := by
  rw [writes_iff, ofText?]
  cases ofDigits? (dropPlus t.toList) with
  | none => simp
  | some n =>
    rw [Option.some.injEq]
    exact checked_eq_some_iff fun hn => UInt64.toNat_ofNat_of_lt' hn

theorem ofText?_eq_none_iff : ofText? t = none ↔ ∀ n < UInt64.size, ¬Writes t n := by
  rw [Option.eq_none_iff_forall_ne_some]
  constructor
  · intro h n hn hwrites
    refine h (UInt64.ofNat n) (ofText?_eq_some_iff.2 ?_)
    rwa [UInt64.toNat_ofNat_of_lt' hn]
  · intro h w hw
    exact h w.toNat w.toNat_lt (ofText?_eq_some_iff.1 hw)

/-- A number is read back from its digits. -/
theorem ofText?_render (w : UInt64) : ofText? (String.ofList (render w)) = some w := by
  rw [ofText?_eq_some_iff]
  refine .plain ?_
  rw [String.toList_ofList, render, denotes_iff, ofDigits?_eq_some_iff]
  exact ⟨Nat.toDigits_ne_nil, fun c => Json.Token.isDigit_of_mem,
    Json.Token.naturalOfDigits_toDigits w.toNat⟩

/-! ## Words -/

def product? (v w : UInt64) : Option UInt64 :=
  if v.toNat * w.toNat < UInt64.size then some (v * w) else none

def sum? (v w : UInt64) : Option UInt64 :=
  if v.toNat + w.toNat < UInt64.size then some (v + w) else none

/-- The word that digits make behind those of another word. -/
def extend? (w : UInt64) : List Char → Option UInt64
  | [] => some w
  | c :: s =>
    if c.isDigit then
      (product? w 10).bind fun tens =>
        (sum? tens (UInt64.ofNat (c.toNat - '0'.toNat))).bind fun w' => extend? w' s
    else none

/-- Reads a text with checked steps in words. -/
def word? (t : String) : Option UInt64 :=
  match dropPlus t.toList with
  | [] => none
  | s => extend? 0 s

variable {v w w' : UInt64}

theorem product?_eq_some_iff : product? v w = some w' ↔ v.toNat * w.toNat = w'.toNat :=
  checked_eq_some_iff fun hn => by rw [UInt64.toNat_mul, Nat.mod_eq_of_lt hn]

theorem sum?_eq_some_iff : sum? v w = some w' ↔ v.toNat + w.toNat = w'.toNat :=
  checked_eq_some_iff fun hn => by rw [UInt64.toNat_add, Nat.mod_eq_of_lt hn]

theorem toNat_ofNat_digit (hc : c.isDigit = true) :
    (UInt64.ofNat (c.toNat - '0'.toNat)).toNat = c.toNat - '0'.toNat := by
  obtain ⟨d, hd, rfl⟩ := exists_digitChar hc
  rw [toNat_digitChar d hd]
  exact UInt64.toNat_ofNat_of_lt' (Nat.lt_trans hd (by decide))

def valueFrom (n : Nat) (s : List Char) : Nat :=
  s.foldl (fun n c => 10 * n + (c.toNat - '0'.toNat)) n

theorem valueFrom_cons (n : Nat) (c : Char) (s : List Char) :
    valueFrom n (c :: s) = valueFrom (10 * n + (c.toNat - '0'.toNat)) s := by
  rw [valueFrom, List.foldl_cons, valueFrom]

theorem le_valueFrom (n : Nat) (s : List Char) : n ≤ valueFrom n s := by
  induction s generalizing n with
  | nil => exact Nat.le_refl n
  | cons c s ih =>
    rw [valueFrom_cons]
    have hnext := ih (10 * n + (c.toNat - '0'.toNat))
    omega

/-- Words go on just if the value of the whole is a word: it does not get smaller. -/
theorem extend?_eq_some_iff :
    extend? w s = some w' ↔ (∀ c ∈ s, c.isDigit = true) ∧ valueFrom w.toNat s = w'.toNat := by
  induction s generalizing w with
  | nil =>
    rw [extend?, Option.some.injEq, ← UInt64.toNat_inj]
    simp [valueFrom]
  | cons c s ih =>
    rw [extend?, valueFrom_cons, List.forall_mem_cons]
    by_cases hc : c.isDigit = true
    · have hdigit := toNat_ofNat_digit hc
      have hten : (10 : UInt64).toNat = 10 := rfl
      rw [if_pos hc, Option.bind_eq_some_iff]
      simp only [Option.bind_eq_some_iff, product?_eq_some_iff, sum?_eq_some_iff, hdigit, hten, ih]
      constructor
      · rintro ⟨tens, htens, w₁, hw₁, hdigits, hvalue⟩
        refine ⟨⟨hc, hdigits⟩, ?_⟩
        rwa [Nat.mul_comm, htens, hw₁]
      -- The value of the whole bounds what both steps come to.
      · rintro ⟨⟨-, hdigits⟩, hvalue⟩
        have hsum : 10 * w.toNat + (c.toNat - '0'.toNat) < UInt64.size := by
          have hle := le_valueFrom (10 * w.toNat + (c.toNat - '0'.toNat)) s
          rw [hvalue] at hle
          exact Nat.lt_of_le_of_lt hle w'.toNat_lt
        have hproduct : w.toNat * 10 < UInt64.size := by
          rw [Nat.mul_comm]
          exact Nat.lt_of_le_of_lt (Nat.le_add_right _ _) hsum
        rw [← UInt64.toNat_ofNat_of_lt' hsum] at hvalue
        refine ⟨_, (UInt64.toNat_ofNat_of_lt' hproduct).symm, _, ?_, hdigits, hvalue⟩
        rw [UInt64.toNat_ofNat_of_lt' hproduct, UInt64.toNat_ofNat_of_lt' hsum, Nat.mul_comm]
    · rw [if_neg hc]
      exact ⟨fun h => (nomatch h), fun h => absurd h.1.1 hc⟩

/-- The value decides in the same way as the steps. -/
theorem word?_eq_ofText? (t : String) : word? t = ofText? t := by
  refine Option.ext fun w => ?_
  rw [ofText?_eq_some_iff, writes_iff, ofDigits?_eq_some_iff, word?]
  cases dropPlus t.toList with
  | nil => simp
  | cons c s =>
    have hvalue : Decimal.naturalOfDigits (c :: s) = valueFrom 0 (c :: s) := by
      rw [Decimal.naturalOfDigits, valueFrom]
    rw [hvalue]
    dsimp only
    rw [extend?_eq_some_iff]
    exact (and_iff_right (List.cons_ne_nil c s)).symm

theorem mem_dropPlus (h : c ∈ s) (hc : c ≠ '+') : c ∈ dropPlus s := by
  by_cases hsign : ∃ s', s = '+' :: s'
  · obtain ⟨s', rfl⟩ := hsign
    exact (List.mem_cons.1 h).resolve_left hc
  · rwa [dropPlus_eq_self (not_exists.1 hsign)]

/-- Without a digit, with a character of another kind, or for a number that is too large, a text
writes no number of a word. -/
theorem not_writes (h : t = "" ∨ t = "+" ∨ (∃ c ∈ t.toList, c ≠ '+' ∧ c.isDigit = false) ∨
    ∃ m, UInt64.size ≤ m ∧ Writes t m) : ∀ n < UInt64.size, ¬Writes t n := by
  intro n hn hwrites
  obtain rfl | rfl | ⟨c, hc, hplus, hother⟩ | ⟨m, hm, hlarge⟩ := h
  · cases writes_iff.1 hwrites
  · cases writes_iff.1 hwrites
  · have hdigit := (ofDigits?_eq_some_iff.1 (writes_iff.1 hwrites)).2.1 c (mem_dropPlus hc hplus)
    rw [hother] at hdigit
    exact Bool.false_ne_true hdigit
  · rw [hlarge.unique hwrites] at hm
    exact absurd hn (Nat.not_lt.2 hm)

end Count

/-! ## Counts of shapes -/

theorem Inquiry.exists_run_value {g : Source} {d : Dataset} {s : Node} {p : String}
    {nodes : List Node} (hg : g.AnswersFrom d) (h : g.answer (.objects s p) = .ok nodes) :
    ∃ v, d.IsValue s p v ∧ (value s p).run g = .ok v := by
  have hrun : (value s p).run g = .ok nodes.head? := by
    rw [value, run_bind, objects, run, h]
    rfl
  exact ⟨_, (ends_value (E := fun _ => False) hg s p).of_run_ok hrun, hrun⟩

namespace Shape

open Vocabulary

variable {g : Source} {d : Dataset} {shape : Node} {classId path predicate : String}

def countOf (classId path predicate : String) : Option Node → Except ModelError (Option UInt64)
  | none => .ok none
  | some v =>
    match Count.ofText? v.text with
    | some n => .ok (some n)
    | none => .error (.invalidCardinality classId path predicate v.text)

theorem run_count (hg : g.AnswersFrom d) {nodes : List Node}
    (h : g.answer (.objects shape predicate) = .ok nodes) (classId path : String) :
    ∃ v, d.IsValue shape predicate v ∧
      (count classId shape path predicate).run g = countOf classId path predicate v := by
  obtain ⟨v, hv, hrun⟩ := Inquiry.exists_run_value hg h
  refine ⟨v, hv, ?_⟩
  rw [count, Inquiry.run_bind, hrun]
  cases v with
  | none => rfl
  | some v =>
    rw [countOf]
    show Inquiry.run g (match Count.ofText? v.text with
      | some n => return some n
      | none => .failure (.invalidCardinality classId path predicate v.text)) = _
    cases Count.ofText? v.text <;> rfl

theorem countOf_eq_none_iff {v : Option Node} :
    countOf classId path predicate v = .ok none ↔ v = none := by
  cases v with
  | none => simp [countOf]
  | some v =>
    rw [countOf]
    cases Count.ofText? v.text <;> simp

theorem countOf_eq_some_iff {v : Option Node} {n : UInt64} :
    countOf classId path predicate v = .ok (some n) ↔
      ∃ w, v = some w ∧ Count.Writes w.text n.toNat := by
  cases v with
  | none => simp [countOf]
  | some v =>
    simp only [Option.some.injEq, exists_eq_left', ← Count.ofText?_eq_some_iff, countOf]
    cases Count.ofText? v.text <;> simp

theorem countOf_eq_error_iff {v : Option Node} {e : ModelError} :
    countOf classId path predicate v = .error e ↔
      ∃ w, v = some w ∧ (∀ n < UInt64.size, ¬Count.Writes w.text n) ∧
        e = .invalidCardinality classId path predicate w.text := by
  cases v with
  | none => simp [countOf]
  | some v =>
    simp only [Option.some.injEq, exists_eq_left', ← Count.ofText?_eq_none_iff, countOf]
    cases Count.ofText? v.text <;> simp [eq_comm]

/-- A count is none just if there is no object, a number if the least object writes it, and else
an error with the text of the least object; nothing else stops it but a refusal. -/
theorem count_by_text (hg : g.AnswersFrom d) (shape : Node) (classId path predicate : String) :
    (∀ nodes, g.answer (.objects shape predicate) = .ok nodes →
      ((count classId shape path predicate).run g = .ok none ↔ d.Lacks shape predicate) ∧
      (∀ n, (count classId shape path predicate).run g = .ok (some n) ↔
        ∃ v, d.Least shape predicate v ∧ Count.Writes v.text n.toNat) ∧
      ∀ e, (count classId shape path predicate).run g = .error e ↔
        ∃ v, d.Least shape predicate v ∧ (∀ n < UInt64.size, ¬Count.Writes v.text n) ∧
          e = .invalidCardinality classId path predicate v.text) ∧
    (∀ cause, g.answer (.objects shape predicate) = .error cause →
      (count classId shape path predicate).run g = .error (.graph cause)) ∧
    (∀ t, (t = "" ∨ t = "+" ∨ (∃ c ∈ t.toList, c ≠ '+' ∧ c.isDigit = false) ∨
      ∃ m, UInt64.size ≤ m ∧ Count.Writes t m) → ∀ n < UInt64.size, ¬Count.Writes t n) ∧
    (∀ digits n, Count.Denotes digits n → ∀ k, Count.Denotes (List.replicate k '0' ++ digits) n) ∧
    (∀ t, Count.word? t = Count.ofText? t) ∧
    ∀ n, Count.ofText? (String.ofList (Count.render n)) = some n := by
  refine ⟨fun nodes hnodes => ?_, fun cause hcause => ?_, fun t => Count.not_writes,
    fun digits n => Count.Denotes.zeros, Count.word?_eq_ofText?, Count.ofText?_render⟩
  · obtain ⟨v, hv, hrun⟩ := run_count hg hnodes classId path
    have hvalue (w : Option Node) : v = w ↔ d.IsValue shape predicate w :=
      ⟨fun h => h ▸ hv, hv.unique⟩
    simp only [hrun, countOf_eq_none_iff, countOf_eq_some_iff, countOf_eq_error_iff, hvalue]
    exact ⟨Iff.rfl, fun n => Iff.rfl, fun e => Iff.rfl⟩
  · rw [count, Inquiry.run_bind, Inquiry.value, Inquiry.run_bind, Inquiry.objects, Inquiry.run,
      hcause]
    rfl

/-- Bounds at both sides of the largest word, and one of two objects. -/
def boundedShapes : Dataset :=
  [⟨.blank "wheels", shMinCount, .literal "+0018446744073709551615" .plain, none⟩,
    ⟨.blank "wheels", shMaxCount, .literal "18446744073709551616" .plain, none⟩,
    ⟨.blank "doors", shMinCount, .literal "5" .plain, none⟩,
    ⟨.blank "doors", shMinCount, .literal "-1" .plain, none⟩]

theorem count_by_text_boundedShapes :
    (count "urn:Car" (.blank "wheels") "urn:wheel" shMinCount).run boundedShapes.source =
      .ok (some 18446744073709551615) ∧
    (count "urn:Car" (.blank "wheels") "urn:wheel" shMaxCount).run boundedShapes.source =
      .error (.invalidCardinality "urn:Car" "urn:wheel" shMaxCount "18446744073709551616") ∧
    (count "urn:Car" (.blank "doors") "urn:door" shMinCount).run boundedShapes.source =
      .error (.invalidCardinality "urn:Car" "urn:door" shMinCount "-1") ∧
    (count "urn:Car" (.blank "doors") "urn:door" shMaxCount).run boundedShapes.source = .ok none ∧
    ∃ cause, (count "urn:Car" (.blank "doors") "urn:door" shMaxCount).run
      (boundedShapes.source.refusing [shMaxCount]) = .error (.graph cause) := by
  have hg := Source.answersFrom_source boundedShapes
  have hvalue (s : Node) (p : String) := boundedShapes.isValue_head? s p
  refine ⟨?_, ?_, ?_, ?_, ?_⟩
  · obtain ⟨hok, -⟩ := count_by_text hg (.blank "wheels") "urn:Car" "urn:wheel" shMinCount
    refine ((hok _ rfl).2.1 _).2 ⟨_, hvalue (.blank "wheels") shMinCount, ?_⟩
    exact Count.writes_iff.2 (by decide)
  · obtain ⟨hok, -, htext, -⟩ := count_by_text hg (.blank "wheels") "urn:Car" "urn:wheel" shMaxCount
    refine ((hok _ rfl).2.2 _).2 ⟨_, hvalue (.blank "wheels") shMaxCount, htext _ ?_, rfl⟩
    exact .inr (.inr (.inr ⟨18446744073709551616, Nat.le_refl _, Count.writes_iff.2 (by decide)⟩))
  · obtain ⟨hok, -, htext, -⟩ := count_by_text hg (.blank "doors") "urn:Car" "urn:door" shMinCount
    refine ((hok _ rfl).2.2 _).2 ⟨_, hvalue (.blank "doors") shMinCount, htext _ ?_, rfl⟩
    exact .inr (.inr (.inl ⟨'-', by decide, by decide, by decide⟩))
  · obtain ⟨hok, -⟩ := count_by_text hg (.blank "doors") "urn:Car" "urn:door" shMaxCount
    exact (hok _ rfl).1.2 (hvalue (.blank "doors") shMaxCount)
  · obtain ⟨-, hrefused, -⟩ :=
      count_by_text (hg.refusing [shMaxCount]) (.blank "doors") "urn:Car" "urn:door" shMaxCount
    exact ⟨_, hrefused _ rfl⟩

end Shape
end OntologyModel

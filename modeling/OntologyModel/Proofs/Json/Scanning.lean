/-
Cutting printed text into tokens.

Every piece that the printer writes is scanned as one token or as a blank, whatever
follows it.  Only a number needs to know what comes next, since another digit would
belong to it; but in a printed text a comma or a line feed stands after every value.
`Yields` puts pieces together.
-/
import OntologyModel.Json.Printer
import OntologyModel.Json.Reader
import Mathlib.Data.Nat.Basic
import Mathlib.Tactic.SplitIfs

namespace OntologyModel
namespace Json
namespace Token

/-! ## Strings -/

theorem hexUnit?_hexDigit :
    ∀ n < 32, hexUnit? '0' '0' (hexDigit (n / 16)) (hexDigit (n % 16)) = some n := by
  decide

/-- A character that is written as the number of its code point. -/
theorem string?_unit {n : Nat} (hn : n < 32) (done rest : List Char) :
    string? done
        ('\\' :: 'u' :: '0' :: '0' :: hexDigit (n / 16) :: hexDigit (n % 16) :: rest) =
      string? (Char.ofNat n :: done) rest := by
  have hhigh : ¬(decide (0xD800 ≤ n) && decide (n < 0xDC00)) = true := by simp; omega
  have hlow : ¬(decide (0xDC00 ≤ n) && decide (n < 0xE000)) = true := by simp; omega
  rw [string?, hexUnit?_hexDigit n hn]
  dsimp only
  rw [if_neg hhigh, if_neg hlow]

theorem string?_plain {c : Char} (hquote : c ≠ '"') (hslash : c ≠ '\\') (hc : ¬c.toNat < 32)
    (done rest : List Char) : string? done (c :: rest) = string? (c :: done) rest := by
  rw [string?]
  · rw [if_neg (by simp [hc, hslash])]
  · exact hquote
  · exact fun _ _ _ _ _ h => absurd h hslash
  · exact fun _ _ h => absurd h hslash

theorem string?_escape (c : Char) (done rest : List Char) :
    string? done (escape c ++ rest) = string? (c :: done) rest := by
  have hcode {n : Nat} (h : c.toNat = n) : c = Char.ofNat n := by rw [← h, Char.ofNat_toNat]
  rw [escape]
  split_ifs with hquote hslash hfeed hreturn htab hback hform hcontrol
  · rw [hquote]; rfl
  · rw [hslash]; rfl
  · rw [hfeed]; rfl
  · rw [hreturn]; rfl
  · rw [htab]; rfl
  · rw [hcode hback]; rfl
  · rw [hcode hform]; rfl
  · exact (string?_unit hcontrol done rest).trans (by rw [Char.ofNat_toNat])
  · exact string?_plain hquote hslash hcontrol done rest

theorem string?_flatMap_escape (s done rest : List Char) :
    string? done (s.flatMap escape ++ '"' :: rest) =
      some (String.ofList (done.reverse ++ s), rest) := by
  induction s generalizing done with
  | nil =>
    rw [List.append_nil]
    rfl
  | cons c s ih =>
    rw [List.flatMap_cons, List.append_assoc, string?_escape, ih, List.reverse_cons,
      List.append_assoc, List.singleton_append]

/-! ## Numbers -/

/-- What stands after a value in a printed text. -/
def Delimited (rest : List Char) : Prop := ∃ c t, rest = c :: t ∧ (c = ',' ∨ c = '\n')

theorem digitChar_ne_zero : ∀ n < 10, 0 < n → n.digitChar ≠ '0' := by decide

theorem head?_toDigits_ne_zero {n : Nat} (hn : 0 < n) : (Nat.toDigits 10 n).head? ≠ some '0' := by
  induction n using Nat.strong_induction_on with
  | _ n ih =>
    rcases Nat.lt_or_ge n 10 with hlt | hge
    · rw [Nat.toDigits_of_lt_base hlt, List.head?_cons]
      exact fun h => digitChar_ne_zero n hlt hn (Option.some.inj h)
    · have hfront := ih (n / 10) (by omega) (by omega)
      rw [Nat.toDigits_of_base_le (by decide) hge]
      rwa [List.head?_append, Option.or_of_isSome]
      exact List.isSome_head?.2 Nat.toDigits_ne_nil

theorem isDigit_of_mem {n : Nat} {c : Char} (h : c ∈ Nat.toDigits 10 n) : c.isDigit = true :=
  Nat.isDigit_of_mem_toDigits (by decide) (by decide) h

theorem digits_toDigits (n : Nat) {rest : List Char} (hrest : Delimited rest) :
    digits (Nat.toDigits 10 n ++ rest) = (Nat.toDigits 10 n, rest) := by
  have hstop : rest.takeWhile Char.isDigit = [] ∧ rest.dropWhile Char.isDigit = rest := by
    obtain ⟨c, t, rfl, rfl | rfl⟩ := hrest <;> exact ⟨rfl, rfl⟩
  rw [digits, List.takeWhile_append_of_pos fun c => isDigit_of_mem,
    List.dropWhile_append_of_pos fun c => isDigit_of_mem, hstop.1, hstop.2, List.append_nil]

theorem naturalOfDigits_toDigits (n : Nat) : Decimal.naturalOfDigits (Nat.toDigits 10 n) = n :=
  Nat.ofDigitChars_toDigits (by decide) (by decide)

theorem ofParts_toDigits {n : Nat} (hn : n < UInt64.size) :
    Number.ofParts false (Nat.toDigits 10 n) none none = some (.whole n) := by
  have hfits : Number.fitsWord n = true := by
    rw [Number.fitsWord, Bool.and_eq_true, decide_eq_true_iff, decide_eq_true_iff]
    exact ⟨Int.le_trans (by decide) (Int.natCast_nonneg n), Int.ofNat_lt.2 hn⟩
  rw [Number.ofParts, naturalOfDigits_toDigits]
  exact if_pos (by simpa using hfits)

theorem exists_toDigits_eq_cons (n : Nat) :
    ∃ c cs, Nat.toDigits 10 n = c :: cs ∧ c.isDigit = true := by
  obtain ⟨c, cs, h⟩ := List.exists_cons_of_ne_nil (Nat.toDigits_ne_nil (n := n) (b := 10))
  exact ⟨c, cs, h, isDigit_of_mem (h ▸ List.mem_cons_self)⟩

theorem number?_toDigits {n : Nat} (hn : n < UInt64.size) {rest : List Char} (hrest : Delimited rest) :
    number? (Nat.toDigits 10 n ++ rest) = some (.whole n, rest) := by
  have hzero : ((Nat.toDigits 10 n).isEmpty ||
      ((Nat.toDigits 10 n).head? = some '0' && (Nat.toDigits 10 n).length != 1)) = false := by
    rcases Nat.eq_zero_or_pos n with rfl | hpos
    · rfl
    · simp [head?_toDigits_ne_zero hpos, Nat.toDigits_ne_nil]
  have hsign : ∀ s, Nat.toDigits 10 n ++ rest = '-' :: s → False := by
    intro s h
    obtain ⟨c, cs, hcs, hc⟩ := exists_toDigits_eq_cons n
    rw [hcs] at h
    rw [(List.cons.inj h).1] at hc
    exact absurd hc (by decide)
  have hfraction : fraction? rest = some (none, rest) := by
    obtain ⟨c, t, rfl, rfl | rfl⟩ := hrest <;> rfl
  have hexponent : exponent? rest = some (none, rest) := by
    obtain ⟨c, t, rfl, rfl | rfl⟩ := hrest <;> rfl
  rw [number?]
  · dsimp only
    rw [digits_toDigits n hrest]
    dsimp only
    rw [hzero, if_neg Bool.false_ne_true, hfraction]
    dsimp only [Option.bind_eq_bind, Option.bind_some]
    rw [hexponent, Option.bind_some, ofParts_toDigits hn]
    rfl
  · exact hsign

/-! ## Tokens -/

/-- Scanning goes over `text` and finds `ts` when `rest` comes next. -/
def Yields (text : List Char) (ts : List Token) (rest : List Char) : Prop :=
  ∀ (fuel : Nat) (done : List Token), text.length + rest.length ≤ fuel →
    ∃ fuel', rest.length ≤ fuel' ∧
      scan fuel done (text ++ rest) = scan fuel' (ts.reverse ++ done) rest

namespace Yields

variable {a b text rest : List Char} {ts us : List Token} {c : Char}

theorem append (ha : Yields a ts (b ++ rest)) (hb : Yields b us rest) :
    Yields (a ++ b) (ts ++ us) rest := by
  intro fuel done hf
  rw [List.length_append] at hf
  obtain ⟨fuel', hf', heq⟩ := ha fuel done (by rw [List.length_append]; omega)
  rw [List.length_append] at hf'
  obtain ⟨fuel'', hf'', heq'⟩ := hb fuel' (ts.reverse ++ done) hf'
  refine ⟨fuel'', hf'', ?_⟩
  rw [List.append_assoc, heq, heq', List.reverse_append, List.append_assoc]

/-- A piece that is scanned in one step. -/
theorem of_scan (h : ∀ fuel done,
    scan (fuel + 1) done (c :: text ++ rest) = scan fuel (ts.reverse ++ done) rest) :
    Yields (c :: text) ts rest := by
  intro fuel done hf
  rw [List.length_cons] at hf
  obtain ⟨fuel, rfl⟩ : ∃ k, fuel = k + 1 := ⟨fuel - 1, by omega⟩
  exact ⟨fuel, by omega, h fuel done⟩

theorem blank (hc : isBlank c = true) : Yields [c] [] rest :=
  of_scan fun _ _ => if_pos hc

theorem blanks (h : ∀ c ∈ a, isBlank c = true) : Yields a [] rest := by
  induction a generalizing rest with
  | nil => exact fun fuel done hf => ⟨fuel, by simpa using hf, rfl⟩
  | cons c a ih =>
    exact (blank (h c List.mem_cons_self)).append (ih fun d hd => h d (List.mem_cons_of_mem c hd))

theorem newline (level : Nat) : Yields (Value.newline level) [] rest := by
  refine blanks fun c hc => ?_
  rcases List.mem_cons.1 hc with rfl | hc
  · rfl
  · rw [(List.mem_replicate.1 hc).2]
    rfl

theorem mark (hc : isMark c = true) : Yields [c] [.mark c] rest := by
  have hblank : ¬isBlank c = true := by
    intro h
    simp only [isMark, isBlank, Bool.or_eq_true, decide_eq_true_eq] at hc h
    rcases h with ((rfl | rfl) | rfl) | rfl <;> revert hc <;> decide
  exact of_scan fun _ _ => (if_neg hblank).trans (if_pos hc)

theorem quote (s : String) : Yields (Json.quote s) [.leaf (.text s)] rest := by
  refine of_scan fun fuel done => ?_
  have hread := string?_flatMap_escape s.toList [] rest
  rw [List.reverse_nil, List.nil_append, String.ofList_toList] at hread
  rw [List.cons_append, List.append_assoc, List.singleton_append, scan, if_neg (by decide),
    if_neg (by decide), if_pos rfl, hread]
  rfl

theorem count {n : Nat} (hn : n < UInt64.size) (hrest : Delimited rest) :
    Yields (Nat.toDigits 10 n) [.leaf (.number (.whole n))] rest := by
  have hread := number?_toDigits hn hrest
  obtain ⟨c, cs, hcs, hc⟩ := exists_toDigits_eq_cons n
  rw [hcs] at hread ⊢
  -- A digit comes first, so that the scanner tries a number.
  have hne (d : Char) (hd : d.isDigit = false) : c ≠ d := by
    rintro rfl
    rw [hd] at hc
    exact absurd hc Bool.false_ne_true
  have hblank : ¬isBlank c = true := by
    simp [isBlank, hne ' ' rfl, hne '\t' rfl, hne '\n' rfl, hne '\r' rfl]
  have hmark : ¬isMark c = true := by
    simp [isMark, hne '[' rfl, hne ']' rfl, hne '\x7b' rfl, hne '\x7d' rfl, hne ',' rfl, hne ':' rfl]
  refine of_scan fun fuel done => ?_
  rw [List.cons_append] at hread ⊢
  rw [scan, if_neg hblank, if_neg hmark, if_neg (hne '"' rfl)]
  split
  · rename_i h
    exact absurd (List.cons.inj h).1 (hne 'n' rfl)
  · rename_i h
    exact absurd (List.cons.inj h).1 (hne 't' rfl)
  · rename_i h
    exact absurd (List.cons.inj h).1 (hne 'f' rfl)
  · rw [hread]
    rfl

theorem null : Yields "null".toList [.leaf .null] rest := of_scan fun _ _ => rfl

theorem bool (level : Nat) (b : Bool) :
    Yields (Value.pretty level (.bool b)) [.leaf (.bool b)] rest := by
  cases b <;> exact of_scan fun _ _ => rfl

end Yields

end Token
end Json
end OntologyModel

/-
# `SeededPlay.Proofs.SeedCode.Segment` — seeds survive their segments

A segment holds the digits of a seed to the base 33, the leading one first, and reading
it back is Horner's scheme (`readSymbols?_symbols`).  Before a seed is written it goes
through a double, a half is added and the rest is cut off; seeds of the seed space are
far too small for any of that to round (`normalizeSeed_of_lt`).

A digit is found again by its symbol, and one more symbol is one more step of Horner's scheme
(`readSymbols?_concat`).  The symbols are ASCII, so that they are their own upper case is
checked on the first 128 code points (`forall_ascii`).
-/
import SeededPlay.Proofs.Number.Half
import SeededPlay.SeedCode.Segment

namespace SeededPlay

theorem Number.toReal?_int (n : Int) : (Number.int n).toReal? = Binary64.ofInt? n := rfl

theorem Datum.toReal_number {m : Number} {x : Binary64} (h : m.toReal? = some x) :
    Datum.toReal (.number m) = .ok x := by
  unfold Datum.toReal
  simp only [h]

theorem Datum.toReal_int {n : Int} {x : Binary64} (h : Binary64.ofInt? n = some x) :
    Datum.toReal (.int n) = .ok x :=
  Datum.toReal_number ((Number.toReal?_int n).trans h)

namespace SeedCode

/-! ## Symbols -/

theorem idxOf?_symbol {d : Nat} (hd : d < base) : alphabet.idxOf? (symbol d) = some d := by
  have hall : ∀ d < 33, alphabet.idxOf? (symbol d) = some d := by decide +kernel
  exact hall d hd

theorem symbol_mem {d : Nat} (hd : d < base) : symbol d ∈ alphabet := by
  have hall : ∀ d < 33, symbol d ∈ alphabet := by decide +kernel
  exact hall d hd

theorem length_symbols (n seed : Nat) : (symbols n seed).length = n := by
  induction n generalizing seed with
  | zero => rfl
  | succ n ih =>
    unfold symbols
    rw [List.length_append, List.length_singleton, ih]

theorem mem_symbols {n seed : Nat} {c : Char} (h : c ∈ symbols n seed) : c ∈ alphabet := by
  induction n generalizing seed with
  | zero => exact absurd h List.not_mem_nil
  | succ n ih =>
    unfold symbols at h
    rcases List.mem_append.mp h with h | h
    · exact ih h
    · rw [List.mem_singleton.mp h]
      exact symbol_mem (Nat.mod_lt seed (by decide))

theorem readSymbols?_concat (n : Nat) (cs : List Char) (c : Char) :
    readSymbols? n (cs ++ [c]) =
      (readSymbols? n cs).bind fun m => (alphabet.idxOf? c).map (m * base + ·) := by
  induction cs generalizing n with
  | nil =>
    show (alphabet.idxOf? c).bind (fun d => some (n * base + d)) = _
    cases alphabet.idxOf? c <;> rfl
  | cons d cs ih =>
    show (alphabet.idxOf? d).bind (fun k => readSymbols? (n * base + k) (cs ++ [c])) =
      ((alphabet.idxOf? d).bind fun k => readSymbols? (n * base + k) cs).bind _
    cases alphabet.idxOf? d with
    | none => rfl
    | some k => exact ih (n * base + k)

/-- Symbols are read as the digits that they were written for. -/
theorem readSymbols?_symbols (a k seed : Nat) :
    readSymbols? a (symbols k seed) = some (a * base ^ k + seed % base ^ k) := by
  induction k generalizing seed with
  | zero =>
    show some a = _
    rw [Nat.pow_zero, Nat.mul_one, Nat.mod_one, Nat.add_zero]
  | succ k ih =>
    have hmod : seed % base ^ (k + 1) = seed % base + base * (seed / base % base ^ k) := by
      rw [Nat.pow_succ', Nat.mod_mul]
    unfold symbols
    rw [readSymbols?_concat, ih, idxOf?_symbol (Nat.mod_lt seed (by decide)), hmod]
    show some ((a * base ^ k + seed / base % base ^ k) * base + seed % base) = _
    rw [Nat.pow_succ']
    congr 1
    ring

/-! ## Segments -/

theorem seedSpace_eq : seedSpace = base ^ width := Nat.pow_eq

theorem seedSpace_pos : 0 < seedSpace := by
  decide

theorem forall_ascii {p : Char → Prop} (h : ∀ n < 128, p (Char.ofNat n)) {c : Char}
    (hc : c.toNat < 128) : p c := Char.ofNat_toNat c ▸ h c.toNat hc

theorem upperChar_of_ascii {c : Char} (hascii : c.toNat < 0x80) (h : c.toUpper = c) :
    Text.upperChar c = [c] := by
  unfold Text.upperChar
  rw [if_pos hascii, h]

theorem upperChar_symbol {c : Char} (h : c ∈ alphabet) : Text.upperChar c = [c] := by
  have hall : (alphabet.all fun c => c.toNat < 0x80 && c.toUpper == c) = true := by decide
  have hc := List.all_eq_true.mp hall c h
  simp only [Bool.and_eq_true, decide_eq_true_eq, beq_iff_eq] at hc
  exact upperChar_of_ascii hc.1 hc.2

theorem readSegment_writeSegment {seed : Nat} (h : seed < seedSpace) :
    readSegment (writeSegment seed) = seed := by
  have hupper : Text.upperChars (symbols width seed) = symbols width seed := by
    unfold Text.upperChars
    rw [List.flatMap_congr fun c hc => upperChar_symbol (mem_symbols hc), List.flatMap_singleton']
  have hlen : (writeSegment seed).length = width := by
    unfold writeSegment
    rw [String.length_ofList, length_symbols]
  unfold readSegment
  rw [if_pos hlen]
  unfold writeSegment
  rw [String.toList_ofList, hupper, readSymbols?_symbols, Option.getD_some, Nat.zero_mul,
    Nat.zero_add, ← seedSpace_eq, Nat.mod_eq_of_lt h]

/-! ## Seeds as doubles -/

/-- The seed of a whole number that is a double: a half is added, and the sum cut off at the
point. -/
theorem seedOfReal_finite {negative : Bool} {a : Nat} (ha : Binary64.IsGrid a) (hlt : a < 2 ^ 1024)
    (hneg : negative = true → 0 < a) :
    seedOfReal (.finite negative (a * Binary64.unitsPerOne)) =
      Binary64.cutOff negative a % seedSpace := by
  have hsign : (Binary64.signedUnits negative (Binary64.cutOff negative a)).natAbs =
      Binary64.cutOff negative a := by
    cases negative
    · exact Int.natAbs_natCast _
    · exact (Int.natAbs_neg _).trans (Int.natAbs_natCast _)
  have hhalf : half = .finite false (2 ^ 1073) := by
    simp only [half, Nat.pow_eq]
  unfold seedOfReal
  rw [hhalf, Binary64.floor?_add_half ha hlt hneg, Option.elim_some, hsign]

theorem normalizeSeed_of_toReal {d : Datum} {x : Binary64} (h : d.toReal = .ok x) :
    normalizeSeed d = .ok (seedOfReal x) := by
  unfold normalizeSeed
  simp only [h]

theorem seedOfReal_lt (x : Binary64) : seedOfReal x < seedSpace := by
  unfold seedOfReal
  cases (x.add half).floor? with
  | none => exact seedSpace_pos
  | some n => exact Nat.mod_lt _ seedSpace_pos

/-- Seeds of the seed space stand for themselves. -/
theorem normalizeSeed_of_lt {n : Nat} (h : n < seedSpace) : normalizeSeed (.int n) = .ok n := by
  have hspace : seedSpace = 1185921 := rfl
  have hsmall : n < 2 ^ 52 := by omega
  have hlimit : ∀ k, 52 ≤ k → n < 2 ^ k := fun k hk =>
    Nat.lt_of_lt_of_le hsmall (Nat.pow_le_pow_right Nat.two_pos hk)
  have hreal := Datum.toReal_int (Binary64.ofInt?_exact (n := n) (by omega))
  have hcut : Binary64.cutOff false n = n := if_pos hsmall
  have hseed := seedOfReal_finite (Binary64.isGrid_of_lt (by omega)) (hlimit 1024 (by decide))
    fun hneg : false = true => Bool.noConfusion hneg
  rw [normalizeSeed_of_toReal hreal, hseed, hcut, Nat.mod_eq_of_lt h]

end SeedCode

end SeededPlay

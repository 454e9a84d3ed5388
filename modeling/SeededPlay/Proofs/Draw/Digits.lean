/-
# `SeededPlay.Proofs.Draw.Digits` — a draw can be read off its written digest

A digest is noted as sixty-four digits in base sixteen, byte by byte.  A word of it is four
bytes, and the digits of its bytes are its own eight digits (`flatMap_bigEndian`).  Digits in
base sixteen read back to the number they write, to its lowest digits if it has more
(`hexDigits?_hexPadded`), and none of them is a blank, a sign or part of the mark `0x`, so
nothing of a numeral's trimmings gets in the way.  The first eight digits of a digest
therefore write its first word, which is the draw (`Digest.readHex_hex`).

## Reading

A numeral may have blanks around it, a sign and a mark, and its digits may be parted by
underscores.  Padded digits have none of these, so they are a numeral as they stand
(`readHex_hexPadded`).  A digest written out begins with the eight digits of its first word
(`exists_hex`), and the fraction that these digits give is the draw (`fractionOfHex_hex`).
-/
import Mathlib
import SeededPlay.Proofs.Number.Numerals
import SeededPlay.Proofs.Draw.Place
import SeededPlay.Draw.Hexadecimal

namespace SeededPlay

/-! ## Digits in base sixteen -/

namespace Text

theorem length_hexPadded (width n : Nat) : (hexPadded width n).length = width := by
  induction width generalizing n with
  | zero => rfl
  | succ width ih => rw [hexPadded, List.length_append, ih, List.length_singleton]

theorem forall_mem_hexPadded {P : Char → Prop} (h : ∀ d < 16, P (hexDigit d)) (width n : Nat) :
    ∀ c ∈ hexPadded width n, P c := by
  induction width generalizing n with
  | zero => exact nofun
  | succ width ih =>
    intro c hc
    rcases List.mem_append.mp hc with hc | hc
    · exact ih (n / 16) c hc
    · rw [List.mem_singleton.mp hc]
      exact h _ (Nat.mod_lt n (by decide))

theorem flatMap_bigEndian (width n : Nat) :
    ((Sha256.bigEndian width n).flatMap fun b => hexPadded 2 b.toNat) =
      hexPadded (2 * width) n := by
  induction width generalizing n with
  | zero => rfl
  | succ width ih =>
    have hbyte : (UInt8.ofNat (n % 256)).toNat = n % 256 := by
      rw [UInt8.toNat_ofNat']
      omega
    have hhigh : n % 256 / 16 % 16 = n / 16 % 16 := by omega
    have hlow : n % 256 % 16 = n % 16 := by omega
    have hquot : n / 256 = n / 16 / 16 := by omega
    rw [Sha256.bigEndian, List.flatMap_append, ih, List.flatMap_singleton, hbyte, hquot,
      Nat.mul_succ]
    simp only [hexPadded, hhigh, hlow, List.nil_append, List.append_assoc]

end Text

namespace Draw

open Text

theorem hexValue?_hexDigit : ∀ d < 16, hexValue? (hexDigit d) = some d := by decide

theorem hexDigit_ne_underscore : ∀ d < 16, hexDigit d ≠ '_' := by decide

/-- Padded digits read back to the number, as far as there are digits for it. -/
theorem hexDigits?_hexPadded (width n m : Nat) (afterDigit : Bool) (rest : List Char) :
    hexDigits? (hexPadded width n ++ rest) m afterDigit =
      hexDigits? rest (16 ^ width * m + n % 16 ^ width) (afterDigit || width != 0) := by
  induction width generalizing n rest with
  | zero => simp [hexPadded, Nat.mod_one]
  | succ width ih =>
    have hdigit : n % 16 < 16 := Nat.mod_lt n (by decide)
    have hvalue : 16 * (16 ^ width * m + n / 16 % 16 ^ width) + n % 16 =
        16 ^ (width + 1) * m + n % 16 ^ (width + 1) := by
      rw [Nat.pow_succ', Nat.mod_mul, Nat.mul_add, Nat.mul_assoc]
      omega
    rw [hexPadded, List.append_assoc, ih, List.singleton_append, hexDigits?,
      if_neg (hexDigit_ne_underscore _ hdigit), hexValue?_hexDigit _ hdigit]
    show hexDigits? rest _ true = _
    rw [hvalue]
    simp

theorem slice_append {cs : List Char} {n : Nat} (h : cs.length = n) (rest : List Char) :
    slice (cs ++ rest) 0 n = cs := by
  have hlow : (min 0 ((cs ++ rest).length : Int)).toNat = 0 := by omega
  have hhigh : (min (n : Int) ((cs ++ rest).length : Int)).toNat = cs.length := by
    rw [List.length_append]
    omega
  have hnat : ¬(n : Int) < 0 := by omega
  simp only [slice, Int.lt_irrefl, if_false, if_neg hnat, hlow, hhigh, List.take_left,
    List.drop_zero]

theorem hexMagnitude?_eq {cs : List Char} (h : ∀ c ∈ cs, ¬(c = 'x' ∨ c = 'X')) :
    hexMagnitude? cs = hexDigits? cs 0 false := by
  unfold hexMagnitude?
  split
  · rename_i x rest
    rw [if_neg (h x (by simp))]
  · rfl

theorem signed_eq {cs : List Char} (h : ∀ c ∈ cs, c ≠ '-' ∧ c ≠ '+') :
    Numeral.signed cs = (false, cs) := by
  unfold Numeral.signed
  split
  · exact absurd rfl (h '-' List.mem_cons_self).1
  · exact absurd rfl (h '+' List.mem_cons_self).2
  · rfl

theorem readHex_hexPadded {width : Nat} (hwidth : 0 < width) (n : Nat) :
    readHex (String.ofList (hexPadded width n)) = .ok ((n % 16 ^ width : Nat) : Int) := by
  have hblank : ∀ c ∈ hexPadded width n, isNumeralBlank c = false :=
    forall_mem_hexPadded (by decide) width n
  have hascii : Numeral.asciiDigits (hexPadded width n) = hexPadded width n := by
    refine (List.map_congr_left ?_).trans (List.map_id _)
    exact forall_mem_hexPadded (by decide) width n
  have hsigned := signed_eq (forall_mem_hexPadded (by decide) width n)
  have hmark := hexMagnitude?_eq (forall_mem_hexPadded (by decide) width n)
  have hread := hexDigits?_hexPadded width n 0 false []
  have hdigits : (false || width != 0) = true := by simp; omega
  rw [List.append_nil, hdigits, Nat.mul_zero, Nat.zero_add] at hread
  rw [readHex, Numeral.bare_eq hblank, hascii, hsigned]
  simp only [hmark, hread, hexDigits?]
  rfl

end Draw

/-! ## Digests -/

namespace Digest

theorem exists_hex (d : Digest) :
    ∃ rest, d.hex = String.ofList (Text.hexPadded 8 d.a.toNat ++ rest) := by
  rw [hex, bytes, words, List.flatMap_cons, List.flatMap_append, Text.flatMap_bigEndian]
  exact ⟨_, rfl⟩

/-- The first eight digits of a digest write its first word. -/
theorem readHex_hex (d : Digest) :
    Draw.readHex (String.ofList (Draw.slice d.hex.toList 0 8)) = .ok (d.a.toNat : Int) := by
  obtain ⟨rest, hhex⟩ := d.exists_hex
  have hlength := Text.length_hexPadded 8 d.a.toNat
  have hslice : Draw.slice d.hex.toList 0 8 = Text.hexPadded 8 d.a.toNat := by
    rw [hhex, String.toList_ofList]
    exact Draw.slice_append hlength rest
  have hword : d.a.toNat % 16 ^ 8 = d.a.toNat := Nat.mod_eq_of_lt d.a.toNat_lt
  rw [hslice, Draw.readHex_hexPadded (by decide), hword]

theorem fractionOfHex_hex (d : Digest) : Draw.fractionOfHex d.hex 0 = .ok (Draw.fraction d.a) := by
  rw [Draw.fractionOfHex]
  show (Draw.readHex (String.ofList (Draw.slice d.hex.toList 0 8))).map _ = _
  rw [readHex_hex]
  rfl

end Digest

end SeededPlay

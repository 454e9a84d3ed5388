/-
# `SeededPlay.Proofs.SeedCode.Total` — what has a code, and what a code looks like

The parts of a code are a verb, a gravity, a world, a digit and four symbols (`Parts`);
a text that is put together from them is well formed.  Four symbols are always the segment
of a seed (`exists_symbols`), so every well-formed code is read part by part
(`Parts.decode_text`), and none of its characters has to be escaped in an address
(`Parts.shareAddress_text`).

Choices of any kind have a heading, and nearly every raw seed has a segment: what is no
number counts as zero, and so do nan and the infinities.  The one thing that has none is an
integer beyond every double (`encode_total`).

A character of a code stands for itself in an address, and so does a text of such characters,
byte by byte (`shareAddress_of_isCodeChar`).  A raw seed that is a text counts as zero if it is
no numeral (`exists_normalizeSeed_text`); of all raw seeds one kind has no segment
(`normalizeSeed_cases`).
-/
import SeededPlay.Proofs.Number.Range
import SeededPlay.Proofs.SeedCode.Code

namespace SeededPlay.SeedCode

/-! ## Well-formed codes -/

/-- The parts of a code. -/
structure Parts where
  verb : Verb
  gravity : Gravity
  world : WorldMark
  digit : Nat
  digit_le : digit ≤ 9
  symbols : List Char
  length_symbols : symbols.length = width
  known : ∀ c ∈ symbols, c ∈ alphabet

theorem exists_symbols {cs : List Char} (h : ∀ c ∈ cs, c ∈ alphabet) :
    ∃ n < base ^ cs.length, cs = symbols cs.length n := by
  induction cs using List.reverseRecOn with
  | nil => exact ⟨0, Nat.one_pos, rfl⟩
  | append_singleton cs c ih =>
    obtain ⟨n, hn, hcs⟩ := ih fun d hd => h d (List.mem_append_left _ hd)
    obtain ⟨d, hd, hc⟩ : ∃ d < base, c = symbol d := by
      have hall : alphabet = (List.range base).map symbol := by decide +kernel
      have hmem := h c (List.mem_append_right _ List.mem_cons_self)
      rw [hall] at hmem
      obtain ⟨d, hd, rfl⟩ := List.mem_map.mp hmem
      exact ⟨d, List.mem_range.mp hd, rfl⟩
    have hlen : (cs ++ [c]).length = cs.length + 1 := List.length_append
    have hquot : (n * base + d) / base = n := by
      rw [Nat.mul_comm, Nat.mul_add_div (by decide), Nat.div_eq_of_lt hd, Nat.add_zero]
    have hrest : (n * base + d) % base = d := by
      rw [Nat.mul_comm, Nat.mul_add_mod, Nat.mod_eq_of_lt hd]
    refine ⟨n * base + d, ?_, ?_⟩
    · rw [hlen, Nat.pow_succ]
      calc n * base + d < n * base + base := Nat.add_lt_add_left hd _
        _ = (n + 1) * base := (Nat.succ_mul n base).symm
        _ ≤ base ^ cs.length * base := Nat.mul_le_mul_right _ hn
    · rw [hlen]
      unfold SeedCode.symbols
      rw [hquot, hrest, ← hcs, hc]

namespace Parts

/-- The code of its parts. -/
def text (p : Parts) : String :=
  p.verb.code ++ "-" ++ p.gravity.code ++ "-" ++ p.world.code ++ toString p.digit ++ "-" ++
    String.ofList p.symbols

/-- What the parts say besides the seed. -/
def heading (p : Parts) : Heading := ⟨p.verb, p.gravity, p.world, p.digit⟩

/-- The seed that the symbols of a code stand for. -/
def seed (p : Parts) : Nat := readSegment (String.ofList p.symbols)

/-- The parts of a heading and a seed. -/
def ofHeading (h : Heading) (hd : h.digit ≤ 9) (seed : Nat) : Parts where
  verb := h.verb
  gravity := h.gravity
  world := h.world
  digit := h.digit
  digit_le := hd
  symbols := SeedCode.symbols width seed
  length_symbols := SeedCode.length_symbols width seed
  known _ := mem_symbols

theorem text_ofHeading {h : Heading} (hd : h.digit ≤ 9) (seed : Nat) :
    (ofHeading h hd seed).text = write h seed := rfl

theorem seed_ofHeading {h : Heading} (hd : h.digit ≤ 9) {seed : Nat} (hs : seed < seedSpace) :
    (ofHeading h hd seed).seed = seed := readSegment_writeSegment hs

/-- A well-formed code is the code of its heading and its seed. -/
theorem text_eq_write (p : Parts) : p.text = write p.heading p.seed ∧ p.seed < seedSpace := by
  obtain ⟨n, hn, hsymbols⟩ := exists_symbols p.known
  rw [p.length_symbols] at hn hsymbols
  rw [← seedSpace_eq] at hn
  have hseed : p.seed = n := by
    unfold seed
    rw [hsymbols]
    exact readSegment_writeSegment hn
  rw [hseed]
  refine ⟨?_, hn⟩
  unfold text
  rw [hsymbols]
  rfl

theorem decode_text (p : Parts) :
    decode p.text = ⟨some p.verb, some p.gravity, some p.world, 11 * p.digit, p.seed⟩ := by
  obtain ⟨htext, hseed⟩ := p.text_eq_write
  rw [htext]
  exact decode_write (h := p.heading) p.digit_le hseed

end Parts

/-! ## Addresses -/

/-- Whether a character is a capital letter, a digit or a dash. -/
def isCodeChar (c : Char) : Bool := c.isUpper || c.isDigit || c == '-'

theorem toNat_of_isCodeChar {c : Char} (h : isCodeChar c = true) : c.toNat < 128 := by
  unfold isCodeChar Char.isUpper Char.isDigit at h
  simp only [Bool.or_eq_true, Bool.and_eq_true, decide_eq_true_eq, beq_iff_eq] at h
  rcases h with (⟨-, hc⟩ | ⟨-, hc⟩) | rfl
  · exact Nat.lt_of_le_of_lt (show c.toNat ≤ 90 from hc) (by decide)
  · exact Nat.lt_of_le_of_lt (show c.toNat ≤ 57 from hc) (by decide)
  · decide

theorem addressByte_of_isCodeChar {c : Char} (h : isCodeChar c = true) :
    (String.utf8EncodeChar c).flatMap addressByte = [c] :=
  forall_ascii (p := fun c => isCodeChar c = true →
    (String.utf8EncodeChar c).flatMap addressByte = [c]) (by decide +kernel)
    (toNat_of_isCodeChar h) h

theorem toList_loop_eq (bytes : ByteArray) (i : Nat) (before : List UInt8) :
    ByteArray.toList.loop bytes i before = before.reverse ++ bytes.data.toList.drop i := by
  induction i, before using ByteArray.toList.loop.induct bytes with
  | case1 i before hlt ih =>
    have hi : i < bytes.data.toList.length := hlt
    have hget : bytes.get! i = bytes.data.toList[i] := getElem!_pos bytes.data i hlt
    rw [ByteArray.toList.loop, if_pos hlt, ih, List.drop_eq_getElem_cons hi, hget,
      List.reverse_cons, List.append_assoc, List.singleton_append]
  | case2 i before hge =>
    have hlen : bytes.data.toList.length ≤ i := Nat.not_lt.mp hge
    rw [ByteArray.toList.loop, if_neg hge, List.drop_eq_nil_of_le hlen, List.append_nil]

theorem toUTF8_toList (s : String) : s.toUTF8.toList = s.toList.flatMap String.utf8EncodeChar := by
  have hbytes : s.toByteArray = s.toList.utf8Encode := by
    rw [← String.toByteArray_ofList, String.ofList_toList]
  rw [String.toUTF8_eq_toByteArray, ByteArray.toList, toList_loop_eq, hbytes, List.utf8Encode,
    List.data_toByteArray]
  rfl

theorem shareAddress_of_isCodeChar {code : String} (h : ∀ c ∈ code.toList, isCodeChar c = true)
    (start : String) : shareAddress start code = start ++ code := by
  unfold shareAddress
  rw [toUTF8_toList, List.flatMap_assoc,
    List.flatMap_congr fun c hc => addressByte_of_isCodeChar (h c hc), List.flatMap_singleton',
    String.ofList_toList]

namespace Parts

theorem isCodeChar_text (p : Parts) : ∀ c ∈ p.text.toList, isCodeChar c = true := by
  have hverb : ∀ v : Verb, v.code.toList.all isCodeChar = true := by
    intro v
    cases v <;> decide
  have hgravity : ∀ g : Gravity, g.code.toList.all isCodeChar = true := by
    intro g
    cases g <;> decide
  have hworld : ∀ w : WorldMark, w.code.toList.all isCodeChar = true := by
    rintro (w | _)
    · cases w <;> decide
    · decide
  have hdigit : ∀ d ≤ 9, (toString d).toList.all isCodeChar = true := by decide +kernel
  have hdash : "-".toList.all isCodeChar = true := by decide
  have hsymbols : p.symbols.all isCodeChar = true := by
    have hall : alphabet.all isCodeChar = true := by decide
    exact List.all_eq_true.mpr fun c hc => List.all_eq_true.mp hall c (p.known c hc)
  refine List.all_eq_true.mp ?_
  unfold text
  simp only [String.toList_append, String.toList_ofList, List.all_append, hverb, hgravity, hworld,
    hdigit p.digit p.digit_le, hdash, hsymbols, Bool.and_self]

theorem shareAddress_text (p : Parts) (start : String) :
    shareAddress start p.text = start ++ p.text :=
  shareAddress_of_isCodeChar p.isCodeChar_text start

end Parts

/-! ## Raw seeds -/

/-- An integer beyond every double. -/
def IsBeyond (seed : Datum) : Prop :=
  ∃ n : Int, seed = .int n ∧ 2 ^ 1024 - 2 ^ 970 ≤ n.natAbs

theorem normalizeSeed_of_beyond {m : Number} (h : m.toReal? = none) :
    normalizeSeed (.number m) = .error .outOfRange := by
  unfold normalizeSeed Datum.toReal
  simp only [h]

theorem exists_normalizeSeed_text (s : String) :
    ∃ seed < seedSpace, normalizeSeed (.text s) = .ok seed := by
  cases hx : Numeral.readReal? s with
  | some x =>
    have hreal : Datum.toReal (.text s) = .ok x := by
      unfold Datum.toReal
      simp only [hx]
    exact ⟨_, seedOfReal_lt x, normalizeSeed_of_toReal hreal⟩
  | none =>
    have hreal : Datum.toReal (.text s) = .error (.notReal s) := by
      unfold Datum.toReal
      simp only [hx]
    refine ⟨0, seedSpace_pos, ?_⟩
    unfold normalizeSeed
    rw [hreal]

/-- An integer beyond every double has no segment, and everything else has one. -/
theorem normalizeSeed_cases (d : Datum) :
    (IsBeyond d ∧ normalizeSeed d = .error .outOfRange) ∨
      ¬IsBeyond d ∧ ∃ seed < seedSpace, normalizeSeed d = .ok seed := by
  cases d with
  | number m =>
    cases hx : m.toReal? with
    | some x =>
      refine .inr ⟨?_, _, seedOfReal_lt x, normalizeSeed_of_toReal (Datum.toReal_number hx)⟩
      rintro ⟨n, hn, hbeyond⟩
      obtain rfl := Datum.number.inj hn
      rw [Number.toReal?_int, Binary64.ofInt?_eq_none_iff.mpr hbeyond] at hx
      cases hx
    | none =>
      refine .inl ⟨?_, normalizeSeed_of_beyond hx⟩
      cases m with
      | int n =>
        rw [Number.toReal?_int] at hx
        exact ⟨n, rfl, Binary64.ofInt?_eq_none_iff.mp hx⟩
      | real x => cases hx
  | bool b =>
    exact .inr ⟨nofun, _, seedOfReal_lt _, normalizeSeed_of_toReal rfl⟩
  | text s => exact .inr ⟨nofun, exists_normalizeSeed_text s⟩
  | null => exact .inr ⟨nofun, 0, seedSpace_pos, rfl⟩
  | list items => exact .inr ⟨nofun, 0, seedSpace_pos, rfl⟩
  | record fields => exact .inr ⟨nofun, 0, seedSpace_pos, rfl⟩

/-! ## Any choices and any seed -/

theorem Heading.digit_ofDatum_le (choices : Datum) : (Heading.ofDatum choices).digit ≤ 9 := by
  obtain ⟨level, hlevel⟩ : ∃ level : ChaosLevel, (Heading.ofDatum choices).digit = level.digit := by
    unfold Heading.ofDatum
    dsimp only
    exact ⟨_, rfl⟩
  rw [hlevel]
  exact level.digit_le

/-- The heading of choices as they come: of a record, or of any raw value. -/
def headingOf : Choices ⊕ Datum → Heading
  | .inl c => c.heading
  | .inr d => .ofDatum d

theorem digit_headingOf_le (choices : Choices ⊕ Datum) : (headingOf choices).digit ≤ 9 := by
  rcases choices with c | d
  · exact c.heading_digit_le
  · exact Heading.digit_ofDatum_le d

theorem encode_of_beyond {seed : Datum} (h : IsBeyond seed) (heading : Heading) :
    encode heading seed = .error .outOfRange := by
  rcases normalizeSeed_cases seed with ⟨-, hseed⟩ | ⟨hbeyond, -⟩
  · unfold encode
    rw [hseed]
    rfl
  · exact absurd h hbeyond

/-- Encoding succeeds, whatever the choices are and whatever the seed is, except for an
integer beyond every double.  What it gives is well formed: the parts that the choices
say, in a code that is read part by part and stands in an address as it is. -/
theorem encode_total (choices : Choices ⊕ Datum) (seed : Datum) :
    (IsBeyond seed ∧ encode (headingOf choices) seed = .error .outOfRange) ∨
      ¬IsBeyond seed ∧ ∃ p : Parts, encode (headingOf choices) seed = .ok p.text ∧
        p.heading = headingOf choices ∧ normalizeSeed seed = .ok p.seed ∧
        decode p.text = ⟨some p.verb, some p.gravity, some p.world, 11 * p.digit, p.seed⟩ ∧
        ∀ start, shareAddress start p.text = start ++ p.text := by
  rcases normalizeSeed_cases seed with ⟨hbeyond, -⟩ | ⟨hbeyond, n, hn, hseed⟩
  · exact .inl ⟨hbeyond, encode_of_beyond hbeyond _⟩
  · have hdigit := digit_headingOf_le choices
    have hencode : encode (headingOf choices) seed =
        .ok (Parts.ofHeading (headingOf choices) hdigit n).text := by
      unfold encode
      rw [hseed, Parts.text_ofHeading]
      rfl
    refine .inr ⟨hbeyond, Parts.ofHeading _ hdigit n, hencode, rfl, ?_, Parts.decode_text _,
      Parts.shareAddress_text _⟩
    rw [Parts.seed_ofHeading hdigit hn, hseed]

theorem encode_power :
    encode (headingOf (.inr (.record []))) (.int (33 ^ 205 : Nat)) = .error .outOfRange := by
  have hpow : 2 ^ (5 * 205) ≤ 33 ^ 205 := by
    rw [Nat.pow_mul]
    exact Nat.pow_le_pow_left (by decide) 205
  have hlimit : 2 ^ 1024 ≤ 2 ^ (5 * 205) := Nat.pow_le_pow_right Nat.two_pos (by decide)
  refine encode_of_beyond ⟨_, rfl, ?_⟩ _
  rw [Int.natAbs_natCast]
  exact (Nat.sub_le _ _).trans (hlimit.trans hpow)

end SeededPlay.SeedCode

/-
# `SeededPlay.Proofs.SeedCode.Malformed` — what malformed segments are read as

A segment is meant to be four characters, each of them a symbol up to the case of ASCII
letters (`IsSegment`), and whatever is not is meant to stand for the seed zero.  Its
characters are counted before they are turned to upper case, though, and upper case turns
five characters beyond ASCII into symbols.  So what is read is what the four characters
spell, which is up to eight symbols (`readSegment_eq`), and in a whole code, which is in
upper case before it is cut, it is any characters that spell four symbols
(`decode_seed`).

`segments_read` says exactly where that makes a difference: for the texts that spell
symbols with one of the five, and for no others.

## What a text spells

Characters spell symbols (`IsSpelt`) if their upper case is made of symbols.  It makes no
difference whether a text is cut or turned to upper case first (`splitChars_upperChars`), and
nothing spells symbols only once it is in upper case (`isSpelt_upperChars`), so the second
upper case of a segment adds nothing to the first.  Without irregular characters a text spells
four symbols if it is a segment (`isSegment_of_regular`); with one it is no segment
(`not_isSegment`), and what it spells is not zero
(`IsMisspelt.symbolsValue_ne_zero`), so the difference can always be seen.

Four characters are read as a segment is meant to be, unless they are misspelt
(`readSegment_of_not_misspelt`).  A code has four pieces or the seed zero, and what its last
piece spells is a seed other than zero only if the piece is a segment, or spells four symbols
with an irregular character, and then it is (`spelledSeed_ne_zero_iff`).
-/
import SeededPlay.Proofs.SeedCode.Spelling

namespace SeededPlay

namespace Text

/-! ## Cutting and upper case -/

theorem splitChars_ne_nil (sep : Char) (cs : List Char) : splitChars sep cs ≠ [] := by
  cases cs with
  | nil => exact List.cons_ne_nil _ _
  | cons c cs =>
    rw [splitChars_cons]
    split
    · exact List.cons_ne_nil _ _
    · split <;> exact List.cons_ne_nil _ _

theorem splitChars_append_of_not_mem {sep : Char} {xs : List Char} (h : sep ∉ xs)
    {ys piece : List Char} {rest : List (List Char)} (hys : splitChars sep ys = piece :: rest) :
    splitChars sep (xs ++ ys) = (xs ++ piece) :: rest := by
  induction xs with
  | nil => exact hys
  | cons x xs ih =>
    obtain ⟨hx, hxs⟩ := not_or.mp fun hm => h (List.mem_cons.mpr hm)
    rw [List.cons_append, splitChars_cons, if_neg (Ne.symm hx), ih hxs, List.cons_append]

theorem splitChars_upperChars (cs : List Char) :
    splitChars '-' (upperChars cs) = (splitChars '-' cs).map upperChars := by
  induction cs with
  | nil => rfl
  | cons c cs ih =>
    obtain ⟨piece, rest, hpieces⟩ := List.exists_cons_of_ne_nil (splitChars_ne_nil '-' cs)
    rw [hpieces, List.map_cons] at ih
    have hcons : upperChars (c :: cs) = upperChar c ++ upperChars cs := List.flatMap_cons
    rw [hcons, splitChars_cons, hpieces]
    by_cases hc : c = '-'
    · rw [if_pos hc, hc, SeedCode.upperChar_dash, List.singleton_append, splitChars_cons,
        if_pos rfl, ih]
      rfl
    · have hdash : '-' ∉ upperChar c := fun hm => hc (SeedCode.eq_dash_of_mem hm)
      rw [if_neg hc, splitChars_append_of_not_mem hdash ih, List.map_cons]
      rfl

end Text

namespace SeedCode

open Text

/-! ## Symbols and their numbers -/

/-- The number that symbols write, the leading one first. -/
def symbolsValue (cs : List Char) : Nat := Nat.ofDigits base (cs.map alphabet.idxOf).reverse

theorem symbolsValue_cons (c : Char) (cs : List Char) :
    symbolsValue (c :: cs) = alphabet.idxOf c * base ^ cs.length + symbolsValue cs := by
  unfold symbolsValue
  rw [List.map_cons, List.reverse_cons, Nat.ofDigits_append, Nat.ofDigits_singleton,
    List.length_reverse, List.length_map, Nat.add_comm, Nat.mul_comm]

theorem idxOf?_of_mem {c : Char} (h : c ∈ alphabet) :
    alphabet.idxOf? c = some (alphabet.idxOf c) := by
  have hall : (alphabet.all fun c => alphabet.idxOf? c == some (alphabet.idxOf c)) = true := by
    decide +kernel
  exact beq_iff_eq.mp (List.all_eq_true.mp hall c h)

theorem readSymbols?_of_symbols {cs : List Char} (h : ∀ c ∈ cs, c ∈ alphabet) (n : Nat) :
    readSymbols? n cs = some (n * base ^ cs.length + symbolsValue cs) := by
  induction cs generalizing n with
  | nil => exact congrArg some (Nat.mul_one n).symm
  | cons c cs ih =>
    show (alphabet.idxOf? c).bind (fun d => readSymbols? (n * base + d) cs) = _
    rw [idxOf?_of_mem (h c List.mem_cons_self), Option.bind_some,
      ih (fun d hd => h d (List.mem_cons_of_mem c hd)), symbolsValue_cons, List.length_cons,
      Nat.pow_succ', Nat.add_mul, Nat.mul_assoc, Nat.add_assoc]

theorem readSymbols?_eq_none {cs : List Char} (h : ¬∀ c ∈ cs, c ∈ alphabet) (n : Nat) :
    readSymbols? n cs = none := by
  induction cs generalizing n with
  | nil => exact absurd (fun _ hc => absurd hc List.not_mem_nil) h
  | cons c cs ih =>
    show (alphabet.idxOf? c).bind (fun d => readSymbols? (n * base + d) cs) = none
    cases hc : alphabet.idxOf? c with
    | none => rfl
    | some d =>
      obtain ⟨hlt, heq, -⟩ := List.idxOf?_eq_some_iff.mp hc
      have hmem : c ∈ alphabet := heq ▸ List.getElem_mem hlt
      refine ih (fun hcs => h fun u hu => ?_) _
      rcases List.mem_cons.mp hu with rfl | hu
      · exact hmem
      · exact hcs u hu

theorem symbolsValue_lt (cs : List Char) (h : ∀ c ∈ cs, c ∈ alphabet) :
    symbolsValue cs < base ^ cs.length := by
  have hlt := readSymbols?_lt (readSymbols?_of_symbols h 0)
  rwa [Nat.zero_mul, Nat.zero_add, Nat.zero_add, Nat.one_mul] at hlt

theorem symbolsValue_ne_zero {cs : List Char} {c : Char} (hc : c ∈ cs)
    (hne : alphabet.idxOf c ≠ 0) : symbolsValue cs ≠ 0 := by
  induction cs with
  | nil => exact absurd hc List.not_mem_nil
  | cons d cs ih =>
    rw [symbolsValue_cons]
    rcases List.mem_cons.mp hc with rfl | hc
    · have hpos : 0 < alphabet.idxOf c * base ^ cs.length :=
        Nat.mul_pos (Nat.pos_of_ne_zero hne) (Nat.pow_pos (by decide))
      omega
    · have := ih hc
      omega

/-! ## What texts spell -/

/-- Whether a text spells symbols only. -/
def IsSpelt (cs : List Char) : Prop := ∀ u ∈ spellings cs, u ∈ alphabet

instance : DecidablePred IsSpelt := fun cs =>
  inferInstanceAs (Decidable (∀ u ∈ spellings cs, u ∈ alphabet))

/-- Whether a text spells symbols, and some of them with an irregular character. -/
def IsMisspelt (cs : List Char) : Prop := IsSpelt cs ∧ ∃ c ∈ cs, IsIrregular c

/-- Four characters, each of them a symbol up to the case of ASCII letters. -/
def IsSegment (cs : List Char) : Prop := cs.length = width ∧ ∀ c ∈ cs, c.toUpper ∈ alphabet

instance : DecidablePred IsSegment := fun cs =>
  inferInstanceAs (Decidable (cs.length = width ∧ ∀ c ∈ cs, c.toUpper ∈ alphabet))

/-- The seed that a segment is meant to stand for: zero if it is malformed. -/
def seedOf (cs : List Char) : Nat :=
  if IsSegment cs then symbolsValue (cs.map Char.toUpper) else 0

/-- The seed that characters stand for by what they spell. -/
def spelledSeed (cs : List Char) : Nat :=
  if (spellings cs).length = width ∧ IsSpelt cs then symbolsValue (spellings cs) else 0

theorem mem_spellings {cs : List Char} {c u : Char} (hc : c ∈ cs) (hu : u ∈ spelling c) :
    u ∈ spellings cs := List.mem_flatMap.mpr ⟨c, hc, hu⟩

theorem IsSpelt.upperChars {cs : List Char} (h : IsSpelt cs) : upperChars cs = spellings cs :=
  List.flatMap_congr fun _ hc => upperChar_of_spelling fun _ hu => h _ (mem_spellings hc hu)

theorem isSpelt_of_upperChars {cs : List Char} (h : ∀ u ∈ upperChars cs, u ∈ alphabet) :
    IsSpelt cs := by
  have hspell : upperChars cs = spellings cs := List.flatMap_congr fun c hc =>
    upperChar_eq_spelling fun u hu => h u (List.mem_flatMap.mpr ⟨c, hc, hu⟩)
  rwa [hspell] at h

theorem isSpelt_iff {cs : List Char} : IsSpelt cs ↔ ∀ u ∈ upperChars cs, u ∈ alphabet :=
  ⟨fun h => h.upperChars ▸ h, isSpelt_of_upperChars⟩

theorem upperChars_of_symbols {cs : List Char} (h : ∀ c ∈ cs, c ∈ alphabet) :
    upperChars cs = cs := by
  unfold upperChars
  rw [List.flatMap_congr fun c hc => upperChar_symbol (h c hc), List.flatMap_singleton']

theorem isSpelt_upperChars {cs : List Char} : IsSpelt (upperChars cs) ↔ IsSpelt cs := by
  rw [isSpelt_iff, isSpelt_iff]
  constructor
  · intro h u hu
    obtain ⟨c, -, hc⟩ := List.mem_flatMap.mp hu
    exact mem_alphabet_of_upper hc fun v hv => h v (List.mem_flatMap.mpr ⟨u, hu, hv⟩)
  · intro h
    rwa [upperChars_of_symbols h]

section

variable {cs : List Char} (h : ∀ c ∈ cs, ¬IsIrregular c)

include h

theorem spellings_of_regular : spellings cs = cs.map Char.toUpper := by
  unfold spellings
  rw [List.flatMap_congr fun c hc => spelling_of_not_irregular (h c hc), ← List.map_eq_flatMap]

theorem isSegment_of_regular : IsSegment cs ↔ (spellings cs).length = width ∧ IsSpelt cs := by
  unfold IsSegment IsSpelt
  rw [spellings_of_regular h, List.length_map, List.forall_mem_map]

theorem spelledSeed_of_regular : spelledSeed cs = seedOf cs := by
  unfold spelledSeed seedOf
  by_cases hseg : IsSegment cs
  · rw [if_pos ((isSegment_of_regular h).mp hseg), if_pos hseg, spellings_of_regular h]
  · rw [if_neg fun hspelt => hseg ((isSegment_of_regular h).mpr hspelt), if_neg hseg]

end

theorem not_isSegment {cs : List Char} {c : Char} (hc : c ∈ cs) (hirr : IsIrregular c) :
    ¬IsSegment cs := by
  intro h
  have hlarge := hirr.le
  have hsymbol := h.2 c hc
  rw [toUpper_eq_self (by omega)] at hsymbol
  have := (toNat_of_mem_alphabet hsymbol).2
  omega

theorem IsMisspelt.not_isSegment {cs : List Char} (h : IsMisspelt cs) : ¬IsSegment cs := by
  obtain ⟨-, c, hc, hirr⟩ := h
  exact SeedCode.not_isSegment hc hirr

theorem IsMisspelt.symbolsValue_ne_zero {cs : List Char} (h : IsMisspelt cs) :
    symbolsValue (spellings cs) ≠ 0 := by
  obtain ⟨-, c, hc, hirr⟩ := h
  obtain ⟨-, -, hne, hsymbols⟩ := hirr.spec
  obtain ⟨u, us, hus⟩ := List.exists_cons_of_ne_nil hne
  have hu : u ∈ spelling c := hus ▸ List.mem_cons_self
  exact SeedCode.symbolsValue_ne_zero (mem_spellings hc hu) (hsymbols u hu).2

/-! ## What is read -/

theorem readSymbols?_upperChars (cs : List Char) : (readSymbols? 0 (upperChars cs)).getD 0 =
    if IsSpelt cs then symbolsValue (spellings cs) else 0 := by
  split
  · rename_i h
    rw [h.upperChars, readSymbols?_of_symbols h, Option.getD_some, Nat.zero_mul, Nat.zero_add]
  · rename_i h
    rw [readSymbols?_eq_none fun hall => h (isSpelt_iff.mpr hall), Option.getD_none]

/-- Four characters are read as what they spell, everything else as zero. -/
theorem readSegment_eq (s : String) : readSegment s =
    if s.length = width ∧ IsSpelt s.toList then symbolsValue (spellings s.toList) else 0 := by
  unfold readSegment
  rw [readSymbols?_upperChars]
  by_cases hlen : s.length = width
  · simp only [hlen, true_and, if_true]
  · simp only [hlen, false_and, if_false]

/-- A segment of a code, which is in upper case already. -/
theorem readSegment_upperChars (cs : List Char) :
    readSegment (String.ofList (upperChars cs)) = spelledSeed cs := by
  rw [readSegment_eq, String.length_ofList, String.toList_ofList]
  unfold spelledSeed
  simp only [isSpelt_upperChars]
  by_cases hspelt : IsSpelt cs
  · have hfixed : spellings (upperChars cs) = spellings cs := by
      rw [← (isSpelt_upperChars.mpr hspelt).upperChars,
        upperChars_of_symbols (isSpelt_iff.mp hspelt), hspelt.upperChars]
    rw [hfixed, hspelt.upperChars]
  · simp only [hspelt, and_false, if_false]

theorem decode_pieces (code : String) : decode code =
    match splitChars '-' (trimChars code.toList) with
    | [verb, gravity, world, seed] => ofSegments (upperChars verb) (upperChars gravity)
        (upperChars world) (upperChars seed)
    | _ => .unknown := by
  unfold decode
  rw [splitChars_upperChars]
  generalize splitChars '-' (trimChars code.toList) = pieces
  match pieces with
  | [verb, gravity, world, seed] => rfl
  | [] => rfl
  | [_] => rfl
  | [_, _] => rfl
  | [_, _, _] => rfl
  | _ :: _ :: _ :: _ :: _ :: _ => rfl

theorem decode_cases (code : String) :
    (∃ verb gravity world seed,
        splitChars '-' (trimChars code.toList) = [verb, gravity, world, seed] ∧
        decode code = ofSegments (upperChars verb) (upperChars gravity) (upperChars world)
          (upperChars seed)) ∨
      (∀ verb gravity world seed,
        splitChars '-' (trimChars code.toList) ≠ [verb, gravity, world, seed]) ∧
      decode code = .unknown := by
  rw [decode_pieces]
  split
  · rename_i verb gravity world seed hpieces
    exact .inl ⟨verb, gravity, world, seed, hpieces, rfl⟩
  · rename_i hpieces
    exact .inr ⟨hpieces, rfl⟩

/-- The seed of a code is what its last segment spells, if there are four. -/
theorem decode_seed (code : String) : (decode code).seed =
    match splitChars '-' (trimChars code.toList) with
    | [_, _, _, seed] => spelledSeed seed
    | _ => 0 := by
  rw [decode_pieces]
  split
  · exact readSegment_upperChars _
  · rfl

theorem decode_seed_cases (code : String) :
    (∃ verb gravity world seed,
        splitChars '-' (trimChars code.toList) = [verb, gravity, world, seed] ∧
        (decode code).seed = spelledSeed seed) ∨
      (splitChars '-' (trimChars code.toList)).length ≠ 4 ∧ (decode code).seed = 0 := by
  rcases decode_cases code with ⟨verb, gravity, world, seed, hpieces, hread⟩ | ⟨hpieces, hread⟩
  · refine .inl ⟨verb, gravity, world, seed, hpieces, ?_⟩
    rw [hread]
    exact readSegment_upperChars seed
  · refine .inr ⟨fun hlen => ?_, ?_⟩
    · obtain ⟨verb, gravity, world, seed, heq⟩ := List.length_eq_four.mp hlen
      exact hpieces verb gravity world seed heq
    · rw [hread]
      rfl

theorem spelledSeed_ne_zero_iff (seed : List Char) :
    (spelledSeed seed ≠ 0 → IsSegment seed) ↔
      ¬((spellings seed).length = width ∧ IsMisspelt seed) := by
  constructor
  · rintro h ⟨hlen, hmis⟩
    refine hmis.not_isSegment (h ?_)
    rw [spelledSeed, if_pos ⟨hlen, hmis.1⟩]
    exact hmis.symbolsValue_ne_zero
  · intro h hne
    have hspelt : (spellings seed).length = width ∧ IsSpelt seed := by
      by_contra hnot
      exact hne (if_neg hnot)
    refine (isSegment_of_regular fun c hc hirr => ?_).mpr hspelt
    exact h ⟨hspelt.1, hspelt.2, c, hc, hirr⟩

theorem readSegment_of_not_misspelt {s : String}
    (h : ¬(s.length = width ∧ IsMisspelt s.toList)) : readSegment s = seedOf s.toList := by
  rw [readSegment_eq]
  by_cases hirr : ∃ c ∈ s.toList, IsIrregular c
  · obtain ⟨c, hc, hc'⟩ := hirr
    rw [if_neg fun hspelt => h ⟨hspelt.1, hspelt.2, c, hc, hc'⟩, seedOf,
      if_neg (not_isSegment hc hc')]
  · have hregular : ∀ c ∈ s.toList, ¬IsIrregular c := fun c hc hc' => hirr ⟨c, hc, hc'⟩
    have hlen : (spellings s.toList).length = s.length := by
      rw [spellings_of_regular hregular, List.length_map, String.length_toList]
    rw [← spelledSeed_of_regular hregular, spelledSeed, hlen]

theorem seedOf_lt (cs : List Char) : seedOf cs < base ^ width := by
  unfold seedOf
  split
  · rename_i h
    have hlt := symbolsValue_lt (cs.map Char.toUpper) (List.forall_mem_map.mpr h.2)
    rwa [List.length_map, h.1] at hlt
  · exact Nat.pow_pos (by decide)

/-- Four characters are read as what they spell.  So a segment that is not malformed is read
as the number of its symbols and everything else as zero, below the number of seeds, with
one exception: four characters that spell symbols, some of them with an irregular
character.  The seed of a code is below the number of seeds in any case; it is that of its
last segment, and zero if that is malformed, with the same exception, for which the symbols
that are spelt are counted instead of the characters. -/
theorem segments_read (s code : String) :
    readSegment s =
      (if s.length = width ∧ IsSpelt s.toList then symbolsValue (spellings s.toList) else 0) ∧
    (readSegment s = seedOf s.toList ∧ readSegment s < base ^ width ↔
      ¬(s.length = width ∧ IsMisspelt s.toList)) ∧
    let pieces := splitChars '-' (trimChars code.toList)
    (decode code).seed < base ^ width ∧
    (decode code).seed = (match pieces with
      | [_, _, _, seed] => spelledSeed seed
      | _ => 0) ∧
    (((decode code).seed ≠ 0 → ∃ seed ∈ pieces.getLast?, IsSegment seed) ↔
      ¬∃ seed ∈ pieces.getLast?, pieces.length = 4 ∧ (spellings seed).length = width ∧
        IsMisspelt seed) := by
  refine ⟨readSegment_eq s, ⟨?_, fun hnot => ?_⟩, ?_⟩
  · rintro ⟨hread, -⟩ ⟨hlen, hmis⟩
    rw [readSegment_eq, if_pos ⟨hlen, hmis.1⟩, seedOf, if_neg hmis.not_isSegment] at hread
    exact hmis.symbolsValue_ne_zero hread
  · rw [readSegment_of_not_misspelt hnot]
    exact ⟨rfl, seedOf_lt _⟩
  · intro pieces
    refine ⟨seedSpace_eq ▸ decode_seed_lt code, decode_seed code, ?_⟩
    rcases decode_seed_cases code with ⟨verb, gravity, world, seed, hpieces, hseed⟩ | ⟨hlen, hseed⟩
    · have hlast : pieces.getLast? = some seed := congrArg List.getLast? hpieces
      have hfour : pieces.length = 4 := congrArg List.length hpieces
      have hiff := spelledSeed_ne_zero_iff seed
      simpa only [hseed, hlast, hfour, Option.mem_some_iff, exists_eq_left', true_and] using hiff
    · refine iff_of_true (fun hne => absurd hseed hne) ?_
      rintro ⟨seed, -, hfour, -⟩
      exact hlen hfour

/-- Four characters that spell five symbols, the first with a sharp s: they are no segment
and are read as more than there are seeds. -/
theorem segments_misread :
    ¬IsSegment "ßZZZ".toList ∧ readSegment "ßZZZ" = 30582386 ∧
      ¬∀ s, readSegment s < base ^ width := by
  have hread : readSegment "ßZZZ" = 30582386 := by decide +kernel
  refine ⟨not_isSegment (c := 'ß') (by decide) (by decide), hread, fun h => ?_⟩
  have hlt := h "ßZZZ"
  rw [hread] at hlt
  exact absurd hlt (by decide)

end SeedCode

end SeededPlay

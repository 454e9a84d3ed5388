/-
# `SeededPlay.Proofs.SeedCode.Code` — what a seed code brings back

A code is made of characters that reading leaves alone: none of them is a blank, none
has another upper case, and a dash stands nowhere but between two segments.  So a code
that was written is cut into the segments it was made of, and each of them is found
again in its table (`decode_write`).

What is lost is lost in the heading: every free text is one and the same world, and the
digit keeps the chaos level to the nearest multiple of eleven, at most five away
(`ChaosLevel.near_digit`).

## Reading what was written

The characters of a code are plain: blanks do not occur, and each is its own upper case, so
trimming and upper case leave a code as it is.  A piece without the separator is cut off
before the first one (`splitChars_append`), so the segments come apart where they were joined
(`toList_write`).  A digit is written with one character, the fifteenth of the code, and that
stands for its level (`digit_text`).

The digit is the level in steps, rounded half up, in whole numbers (`digit_eq`), and the level
of a digit has this digit (`digit_clamp`).  A mapping with the values of some choices says the
same as the choices (`Given.heading`), down to the level, which is written as a raw value and
read as itself (`ofDatum_datum`).
-/
import SeededPlay.Proofs.Number.Numerals
import SeededPlay.Proofs.SeedCode.Segment
import SeededPlay.Game.Choices

namespace SeededPlay

/-! ## The words of a code -/

theorem Verb.ofCode?_code (v : Verb) : Verb.ofCode? v.code = some v := by
  cases v <;> decide +kernel

theorem Gravity.ofCode?_code (g : Gravity) : Gravity.ofCode? g.code = some g := by
  cases g <;> decide +kernel

namespace WorldMark

theorem ofCode?_code (w : WorldMark) : ofCode? w.code = some w := by
  rcases w with w | _
  · cases w <;> decide +kernel
  · decide +kernel

theorem ofText_word (w : WorldMark) : ofText w.word = w := by
  rcases w with w | _
  · cases w <;> decide +kernel
  · decide +kernel

theorem word_ofText (s : String) :
    (ofText s).word = if s ∈ (Vocabulary.members : List KnownWorld).map Vocabulary.word then s
      else "custom" := by
  unfold ofText
  cases hw : (Vocabulary.ofWord? s : Option KnownWorld) with
  | none =>
    refine (if_neg fun hs => ?_).symm
    obtain ⟨w, -, rfl⟩ := List.mem_map.mp hs
    rw [Vocabulary.ofWord?_word] at hw
    cases hw
  | some w =>
    have hword := Vocabulary.word_of_ofWord? hw
    rw [if_pos (List.mem_map.mpr ⟨w, Vocabulary.mem_members w, hword⟩)]
    exact hword

end WorldMark

/-! ## The chaos digit -/

theorem Binary64.roundEven?_finite (units : Nat) :
    roundEven? (.finite false units) = some (nearestEven units unitsPerOne : Int) := rfl

namespace ChaosLevel

theorem digit_eq (level : ChaosLevel) : level.digit = min 9 ((2 * level.value + 11) / 22) := by
  obtain ⟨v, hv⟩ := level
  have hall : ∀ v : Fin 101,
      digit ⟨v, Nat.le_of_lt_succ v.2⟩ = min 9 ((2 * v.1 + 11) / 22) := by
    decide +kernel
  exact hall ⟨v, Nat.lt_succ_of_le hv⟩

theorem digit_le (level : ChaosLevel) : level.digit ≤ 9 := by
  rw [digit_eq]
  exact Nat.min_le_left _ _

/-- A digit is at most five away from the level it was made of, and stands for it exactly
if it is a multiple of eleven. -/
theorem near_digit (level : ChaosLevel) :
    ((11 * level.digit : Nat) : Int) - level.value ≤ 5 ∧
      (level.value : Int) - (11 * level.digit : Nat) ≤ 5 ∧
      (11 ∣ level.value → 11 * level.digit = level.value) := by
  have hmost := level.le_most
  rw [digit_eq]
  refine ⟨by omega, by omega, fun h => ?_⟩
  omega

theorem value_clamp {n : Nat} (h : n ≤ 100) : (clamp (n : Int)).value = n := by
  show (max 0 (min 100 (n : Int))).toNat = n
  omega

theorem ext {a b : ChaosLevel} (h : a.value = b.value) : a = b := by
  cases a
  cases b
  cases h
  rfl

theorem digit_clamp {d : Nat} (hd : d ≤ 9) : (clamp ((11 * d : Nat) : Int)).digit = d := by
  rw [digit_eq, value_clamp (by omega)]
  omega

theorem ofReal_of_roundEven? {x : Binary64} {n : Int} (h : x.roundEven? = some n) :
    ofReal x = clamp n := by
  unfold ofReal
  simp only [h]

theorem ofDatum_of_toReal {d : Datum} {x : Binary64} (h : d.toReal = .ok x) :
    ofDatum d = ofReal x := by
  unfold ofDatum
  simp only [h]

theorem ofDatum_datum (level : ChaosLevel) : ofDatum level.datum = level := by
  have hmost := level.le_most
  have hreal : level.datum.toReal = .ok (.finite false (level.value * Binary64.unitsPerOne)) :=
    Datum.toReal_int (Binary64.ofInt?_exact (by omega))
  have hround := Binary64.roundEven?_finite (level.value * Binary64.unitsPerOne)
  rw [nearestEven_mul _ Binary64.unitsPerOne_pos] at hround
  rw [ofDatum_of_toReal hreal, ofReal_of_roundEven? hround]
  exact ext (value_clamp hmost)

end ChaosLevel

/-! ## Texts that reading leaves alone -/

namespace Text

/-- Whether a character is beyond the blanks and below the small letters. -/
def isPlain (c : Char) : Bool := 0x20 < c.toNat && c.toNat < 0x61

theorem isBlank_of_isPlain {c : Char} (h : isPlain c = true) : isBlank c = false := by
  simp only [isPlain, Bool.and_eq_true, decide_eq_true_eq] at h
  have hranges : ∀ r ∈ blankRanges, r.2 ≤ 0x20 ∨ 0x61 ≤ r.1 := by decide
  refine Bool.eq_false_iff.mpr fun hb => ?_
  obtain ⟨r, hr, hin⟩ := List.any_eq_true.mp hb
  simp only [Bool.and_eq_true, decide_eq_true_eq] at hin
  rcases hranges r hr with hlow | hhigh <;> omega

theorem upperChar_of_isPlain {c : Char} (h : isPlain c = true) : upperChar c = [c] := by
  simp only [isPlain, Bool.and_eq_true, decide_eq_true_eq] at h
  refine SeedCode.upperChar_of_ascii (by omega) ?_
  unfold Char.toUpper
  rw [dif_neg]
  rintro ⟨ha, -⟩
  have ha : 97 ≤ c.toNat := ha
  omega

theorem trimChars_of_isPlain {cs : List Char} (h : ∀ c ∈ cs, isPlain c = true) :
    trimChars cs = cs :=
  trimWhere_eq_self fun c hc => isBlank_of_isPlain (h c hc)

theorem upperChars_of_isPlain {cs : List Char} (h : ∀ c ∈ cs, isPlain c = true) :
    upperChars cs = cs := by
  unfold upperChars
  rw [List.flatMap_congr fun c hc => upperChar_of_isPlain (h c hc), List.flatMap_singleton']

/-! ## Cutting -/

theorem splitChars_cons (sep c : Char) (cs : List Char) :
    splitChars sep (c :: cs) = if c = sep then [] :: splitChars sep cs
      else match splitChars sep cs with
        | piece :: rest => (c :: piece) :: rest
        | [] => [[c]] := rfl

theorem splitChars_of_not_mem {sep : Char} {cs : List Char} (h : sep ∉ cs) :
    splitChars sep cs = [cs] := by
  induction cs with
  | nil => rfl
  | cons c cs ih =>
    obtain ⟨hc, hcs⟩ := not_or.mp fun hm => h (List.mem_cons.mpr hm)
    rw [splitChars_cons, if_neg (Ne.symm hc), ih hcs]

theorem splitChars_append {sep : Char} {cs : List Char} (h : sep ∉ cs) (rest : List Char) :
    splitChars sep (cs ++ sep :: rest) = cs :: splitChars sep rest := by
  induction cs with
  | nil => rw [List.nil_append, splitChars_cons, if_pos rfl]
  | cons c cs ih =>
    obtain ⟨hc, hcs⟩ := not_or.mp fun hm => h (List.mem_cons.mpr hm)
    rw [List.cons_append, splitChars_cons, if_neg (Ne.symm hc), ih hcs]

end Text

namespace SeedCode

open Text

/-- Whether a character may stand in a segment. -/
def isSegmentChar (c : Char) : Bool := isPlain c && c != '-'

theorem isPlain_of_isSegmentChar {c : Char} (h : isSegmentChar c = true) : isPlain c = true :=
  (Bool.and_eq_true _ _ ▸ h).1

theorem dash_not_mem {cs : List Char} (h : ∀ c ∈ cs, isSegmentChar c = true) : '-' ∉ cs :=
  fun hm => absurd (h '-' hm) (by decide)

theorem isSegmentChar_verb (v : Verb) : ∀ c ∈ v.code.toList, isSegmentChar c = true := by
  refine List.all_eq_true.mp ?_
  cases v <;> decide

theorem isSegmentChar_gravity (g : Gravity) : ∀ c ∈ g.code.toList, isSegmentChar c = true := by
  refine List.all_eq_true.mp ?_
  cases g <;> decide

theorem isSegmentChar_world (w : WorldMark) : ∀ c ∈ w.code.toList, isSegmentChar c = true := by
  refine List.all_eq_true.mp ?_
  rcases w with w | _
  · cases w <;> decide
  · decide

theorem isSegmentChar_symbols (n seed : Nat) : ∀ c ∈ symbols n seed, isSegmentChar c = true := by
  have hall : alphabet.all isSegmentChar = true := by decide
  exact fun c hc => List.all_eq_true.mp hall c (mem_symbols hc)

/-- A digit is written with one character, which stands for its level. -/
theorem digit_text : ∀ d ≤ 9, (toString d).toList = [Nat.digitChar d] ∧
    isSegmentChar (Nat.digitChar d) = true ∧
    chaosOfDigit (some (Nat.digitChar d)) = 11 * d := by
  decide +kernel

/-! ## Reading what was written -/

/-- The characters of a code, segment by segment. -/
theorem toList_write {h : Heading} (hd : h.digit ≤ 9) (seed : Nat) :
    (write h seed).toList = h.verb.code.toList ++ '-' :: (h.gravity.code.toList ++
      '-' :: (h.world.code.toList ++ [Nat.digitChar h.digit] ++ '-' :: symbols width seed)) := by
  have hdash : "-".toList = ['-'] := rfl
  unfold write writeSegment
  simp only [String.toList_append, String.toList_ofList, hdash, (digit_text h.digit hd).1,
    List.append_assoc, List.cons_append, List.nil_append]

theorem length_verb (v : Verb) : v.code.toList.length = 4 := by
  cases v <;> decide

theorem length_gravity (g : Gravity) : g.code.toList.length = 4 := by
  cases g <;> decide

theorem length_world (w : WorldMark) : w.code.toList.length = 4 := by
  rcases w with w | _
  · cases w <;> decide
  · decide

theorem digit_toList_write {h : Heading} (hd : h.digit ≤ 9) (seed : Nat) :
    (write h seed).toList[14]? = some (Nat.digitChar h.digit) := by
  have hverb := length_verb h.verb
  have hgravity := length_gravity h.gravity
  have hworld := length_world h.world
  rw [toList_write hd, List.getElem?_append_right (by omega), hverb, List.getElem?_cons,
    if_neg (by decide), List.getElem?_append_right (by omega), hgravity, List.getElem?_cons,
    if_neg (by decide), List.append_assoc, List.getElem?_append_right (by omega), hworld]
  rfl

/-- A code that was written is read as what it was written for. -/
theorem decode_write {h : Heading} (hd : h.digit ≤ 9) {seed : Nat} (hs : seed < seedSpace) :
    decode (write h seed) =
      ⟨some h.verb, some h.gravity, some h.world, 11 * h.digit, seed⟩ := by
  obtain ⟨-, hdigit, hlevel⟩ := digit_text h.digit hd
  have hverb := isSegmentChar_verb h.verb
  have hgravity := isSegmentChar_gravity h.gravity
  have hsymbols := isSegmentChar_symbols width seed
  have hworld : ∀ c ∈ h.world.code.toList ++ [Nat.digitChar h.digit],
      isSegmentChar c = true := by
    intro c hc
    rcases List.mem_append.mp hc with hc | hc
    · exact isSegmentChar_world h.world c hc
    · rw [List.mem_singleton.mp hc]
      exact hdigit
  have hplain : ∀ c ∈ (write h seed).toList, isPlain c = true := by
    intro c hc
    rw [toList_write hd, List.mem_append, List.mem_cons, List.mem_append, List.mem_cons,
      List.mem_append, List.mem_cons] at hc
    rcases hc with hc | rfl | hc | rfl | hc | rfl | hc
    · exact isPlain_of_isSegmentChar (hverb c hc)
    · decide
    · exact isPlain_of_isSegmentChar (hgravity c hc)
    · decide
    · exact isPlain_of_isSegmentChar (hworld c hc)
    · decide
    · exact isPlain_of_isSegmentChar (hsymbols c hc)
  have hsplit : splitChars '-' (write h seed).toList = [h.verb.code.toList,
      h.gravity.code.toList, h.world.code.toList ++ [Nat.digitChar h.digit],
      symbols width seed] := by
    rw [toList_write hd, splitChars_append (dash_not_mem hverb),
      splitChars_append (dash_not_mem hgravity), splitChars_append (dash_not_mem hworld),
      splitChars_of_not_mem (dash_not_mem hsymbols)]
  have hseed : readSegment (String.ofList (symbols width seed)) = seed :=
    readSegment_writeSegment hs
  unfold decode
  rw [trimChars_of_isPlain hplain, upperChars_of_isPlain hplain, hsplit]
  unfold ofSegments
  simp only [String.ofList_toList, Verb.ofCode?_code, Gravity.ofCode?_code,
    List.dropLast_concat, WorldMark.ofCode?_code, List.getLast?_concat, hlevel, hseed]

end SeedCode

/-! ## Choices and their codes -/

namespace Choices

theorem heading_digit (c : Choices) : c.heading.digit = c.chaos.digit := by
  unfold heading
  dsimp only

theorem heading_digit_le (c : Choices) : c.heading.digit ≤ 9 := by
  rw [heading_digit]
  exact c.chaos.digit_le

/-- A mapping that has the values of some choices, whatever else it holds. -/
structure Given (c : Choices) (fields : Fields Datum) : Prop where
  verbs : fields.get? "verbs" = some (.list (c.verbs.map Vocabulary.datum))
  gravity : fields.get? "gravity" = some (Vocabulary.datum c.gravity)
  world : fields.get? "world_difference" = some (.text c.world)
  chaos : fields.get? "chaos_level" = some c.chaos.datum

theorem Given.heading {c : Choices} {fields : Fields Datum} (h : c.Given fields) :
    SeedCode.Heading.ofDatum (.record fields) = c.heading := by
  have hlead : SeedCode.leadVerb (.list (c.verbs.map Vocabulary.datum)) = c.verbs.head? := by
    cases c.verbs with
    | nil => rfl
    | cons v vs => exact Vocabulary.ofDatum?_datum v
  unfold SeedCode.Heading.ofDatum Choices.heading
  simp only [h.verbs, h.gravity, h.world, h.chaos, Option.bind_some, hlead,
    Vocabulary.ofDatum?_datum, Option.getD_some, ChaosLevel.ofDatum_datum]

end Choices

namespace SeedCode

/-- A seed code keeps the leading verb, the gravity, the seed and a known world as they
are; another world becomes `custom`, and the chaos level moves by five at most, not at
all if it is a multiple of eleven.  It is the same whether the choices come as a record
or as a plain mapping of their values. -/
theorem decode_encode {c : Choices} (hverbs : c.verbs ≠ []) {seed : Int} (hlow : 0 ≤ seed)
    (hhigh : seed < 33 ^ 4) {fields : Fields Datum} (hfields : c.Given fields) :
    ∃ code : String, encode c.heading (.int seed) = .ok code ∧
      encode (.ofDatum (.record fields)) (.int seed) = .ok code ∧
      (decode code).verb = some (c.verbs.head hverbs) ∧
      (decode code).gravity = some c.gravity ∧
      ((decode code).seed : Int) = seed ∧
      (decode code).world.map WorldMark.word = some
        (if c.world ∈ ["colors_alive", "sound_solid", "memory_touch", "time_uneven"] then c.world
          else "custom") ∧
      ∃ d ≤ 9, code.toList[14]? = some (Nat.digitChar d) ∧ (decode code).chaos = 11 * d ∧
        |((11 * d : Nat) : Int) - c.chaos.value| ≤ 5 ∧
        (11 ∣ c.chaos.value → 11 * d = c.chaos.value) := by
  obtain ⟨n, rfl⟩ := Int.eq_ofNat_of_zero_le hlow
  have hspace : n < seedSpace := by
    have hspace : seedSpace = 1185921 := rfl
    omega
  have hencode : encode c.heading (.int n) = .ok (write c.heading n) := by
    unfold encode
    rw [normalizeSeed_of_lt hspace]
    rfl
  have hread := decode_write c.heading_digit_le hspace
  obtain ⟨habove, hbelow, hexact⟩ := c.chaos.near_digit
  have hgiven : encode (.ofDatum (.record fields)) (.int n) = .ok (write c.heading n) := by
    rw [hfields.heading, hencode]
  refine ⟨write c.heading n, hencode, hgiven, ?_⟩
  have hplace : (write c.heading n).toList[14]? = some (Nat.digitChar c.chaos.digit) := by
    rw [digit_toList_write c.heading_digit_le, c.heading_digit]
  have hworld := congrArg some (WorldMark.word_ofText c.world)
  rw [hread]
  unfold Choices.heading at hplace ⊢
  rw [List.head?_eq_some_head hverbs, Option.getD_some] at hplace ⊢
  dsimp only
  exact ⟨rfl, rfl, rfl, hworld, c.chaos.digit, c.chaos.digit_le, hplace, rfl,
    abs_le.mpr ⟨by omega, habove⟩, hexact⟩

/-- Two verbs, a free text for the world, and a level between two digits. -/
def mirrorGarden : Choices where
  verbs := [.shoot, .collect]
  gravity := .low
  world := "a garden of mirrors"
  chaos := ⟨40, by decide⟩

theorem decode_encode_mirrorGarden :
    ∃ code : String, encode mirrorGarden.heading (.int 48213) = .ok code ∧
      (decode code).verb = some .shoot ∧ (decode code).gravity = some .low ∧
      ((decode code).seed : Int) = 48213 ∧
      (decode code).world.map WorldMark.word = some "custom" := by
  have hgiven : mirrorGarden.Given [("verbs", .list [.text "shoot", .text "collect"]),
      ("gravity", .text "low"), ("world_difference", .text "a garden of mirrors"),
      ("chaos_level", .int 40)] := ⟨rfl, rfl, rfl, rfl⟩
  obtain ⟨code, hcode, -, hverb, hgravity, hseed, hworld, -⟩ :=
    decode_encode (List.cons_ne_nil _ _) (by decide : (0 : Int) ≤ 48213) (by decide) hgiven
  exact ⟨code, hcode, hverb, hgravity, hseed, hworld⟩

end SeedCode

end SeededPlay

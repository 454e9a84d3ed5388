/-
# `SeededPlay.Proofs.Game.Blank` — codes that say nothing, and codes that change nothing

What a text says as a code is decided piece by piece, and blankness is a summary of the pieces.
This module says for every text what the summary comes to, and what is done with it.

## Which texts are blank

A text that is not cut into four pieces by its dashes says nothing.  One that is cut into four is
silent (`SeedCode.Silent`) if the first is no code of a verb, the second no code of a gravity, the
third no code of a world with one more character behind it, and the last does not spell four
symbols, or spells four zeros.  The silent texts are exactly the blank ones.

The chaos digit behind the code of the world is read by itself, whether or not a world was
recognised in front of it, and blankness does not ask for it.  So a text is read as the unknown
code if it is silent and has no chaos digit other than zero (`SeedCode.Chaotic`), and the silent
and chaotic texts, such as `XXXX-YYYY-ZZZZ5-0000`, are blank although a chaos was read.

## What blankness decides

The exit code of decoding on the command line, if the terminal shows the title.  Not what is
restored: open fields are filled with defaults, so a text restores the default game if each of
its fields is open, zero, or has the word of the default that would have been filled in
(`Game.restore_eq_default_iff`).  It must be so, because the default game has a code of its own
and is restored from it.  A blank text restores the default game only if it is not chaotic.
-/
import SeededPlay.Proofs.Game.Restore
import SeededPlay.Proofs.SeedCode.Malformed
import SeededPlay.CommandLine.Command

namespace SeededPlay

namespace SeedCode

open Text

/-! ## What the pieces of a text say -/

theorem find?_code_eq_none {α : Type} {all : List α} (hall : ∀ a, a ∈ all) (code : α → String)
    {cs : List Char} :
    all.find? (code · == String.ofList cs) = none ↔ ∀ a, cs ≠ (code a).toList := by
  rw [List.find?_eq_none]
  refine ⟨fun h a hcs => h a (hall a) ?_, fun h a _ heq => h a ?_⟩
  · rw [hcs, String.ofList_toList, beq_self_eq_true]
  · rw [beq_iff_eq.mp heq, String.toList_ofList]

theorem ofCode?_dropLast_eq_none {world : List Char} :
    WorldMark.ofCode? (String.ofList world.dropLast) = none ↔
      ∀ (w : WorldMark) (c : Char), world ≠ w.code.toList ++ [c] := by
  have hall : ∀ w : WorldMark, w ∈ WorldMark.all := by
    rintro (w | _)
    · cases w <;> decide
    · decide
  unfold WorldMark.ofCode?
  rw [find?_code_eq_none hall]
  refine ⟨fun h w c hworld => h w ?_, fun h w hworld => ?_⟩
  · rw [hworld, List.dropLast_concat]
  · have hne : world ≠ [] := by
      rintro rfl
      have hlength := congrArg List.length hworld
      rw [length_world] at hlength
      cases hlength
    exact h w (world.getLast hne) (by rw [← hworld, List.dropLast_concat_getLast hne])

theorem chaosOfDigit_eq_zero_iff {c : Option Char} :
    chaosOfDigit c = 0 ↔ ¬∃ d, c = some d ∧ d.isDigit = true ∧ d ≠ '0' := by
  cases c with
  | none => simp [chaosOfDigit]
  | some d =>
    simp only [chaosOfDigit, Option.some.injEq, exists_eq_left', not_and, not_not]
    by_cases hd : d.isDigit = true
    · have hlow : 0x30 ≤ d.toNat := (Char.isDigit_iff_toNat.mp hd).1
      rw [if_pos hd, ChaosLevel.step, Nat.mul_eq_zero, or_iff_left (by decide)]
      refine ⟨fun hzero _ => Char.toNat_inj.mp ?_, fun h => ?_⟩
      · show d.toNat = 0x30
        omega
      · rw [h hd]
        rfl
    · rw [if_neg hd]
      exact iff_of_true rfl fun h => absurd h hd

theorem symbolsValue_eq_zero {cs : List Char} (h : ∀ c ∈ cs, c = '0') : symbolsValue cs = 0 := by
  induction cs with
  | nil => rfl
  | cons c cs ih =>
    have hzero : alphabet.idxOf '0' = 0 := by decide
    rw [symbolsValue_cons, ih fun d hd => h d (List.mem_cons_of_mem c hd), h c List.mem_cons_self,
      hzero, Nat.zero_mul]

theorem spelledSeed_eq_zero_iff {seed : List Char} : spelledSeed seed = 0 ↔
    ¬((spellings seed).length = width ∧ IsSpelt seed ∧ ∃ u ∈ spellings seed, u ≠ '0') := by
  have hzero : ∀ c ∈ alphabet, alphabet.idxOf c = 0 → c = '0' := fun c hc hidx =>
    (List.idxOf_inj hc).mp (hidx.trans (by decide : 0 = alphabet.idxOf '0'))
  unfold spelledSeed
  by_cases h : (spellings seed).length = width ∧ IsSpelt seed
  · rw [if_pos h]
    refine ⟨fun hvalue hspells => ?_, fun hspells => symbolsValue_eq_zero fun u hu => ?_⟩
    · obtain ⟨-, hspelt, u, hu, hne⟩ := hspells
      exact symbolsValue_ne_zero hu (fun hidx => hne (hzero u (hspelt u hu) hidx)) hvalue
    · by_contra hne
      exact hspells ⟨h.1, h.2, u, hu, hne⟩
  · rw [if_neg h]
    exact iff_of_true rfl fun hspells => h ⟨hspells.1, hspells.2.1⟩

/-- Four pieces of which none says anything but, perhaps, a chaos. -/
structure SaysNothing (verb gravity world seed : List Char) : Prop where
  verb : ∀ v : Verb, upperChars verb ≠ v.code.toList
  gravity : ∀ g : Gravity, upperChars gravity ≠ g.code.toList
  world : ∀ (w : WorldMark) (c : Char), upperChars world ≠ w.code.toList ++ [c]
  seed : ¬((spellings seed).length = width ∧ IsSpelt seed ∧ ∃ u ∈ spellings seed, u ≠ '0')

/-- A text without four pieces that say something. -/
def Silent (s : String) : Prop := ∀ verb gravity world seed,
  splitChars '-' (trimChars s.toList) = [verb, gravity, world, seed] →
    SaysNothing verb gravity world seed

/-- A text in four pieces, of which the third ends in a digit other than zero. -/
def Chaotic (s : String) : Prop := ∃ verb gravity world seed,
  splitChars '-' (trimChars s.toList) = [verb, gravity, world, seed] ∧
    ∃ d, (upperChars world).getLast? = some d ∧ d.isDigit = true ∧ d ≠ '0'

namespace Recovered

theorem isBlank_iff {r : Recovered} : r.isBlank = true ↔
    r.verb = none ∧ r.gravity = none ∧ r.world = none ∧ r.seed = 0 := by
  simp only [isBlank, Bool.and_eq_true, Option.isNone_iff_eq_none, beq_iff_eq, and_assoc]

theorem eq_unknown_iff {r : Recovered} : r = unknown ↔ r.isBlank = true ∧ r.chaos = 0 := by
  rw [isBlank_iff]
  constructor
  · rintro rfl
    exact ⟨⟨rfl, rfl, rfl, rfl⟩, rfl⟩
  · rintro ⟨⟨hverb, hgravity, hworld, hseed⟩, hchaos⟩
    obtain ⟨verb, gravity, world, chaos, seed⟩ := r
    subst hverb hgravity hworld hseed hchaos
    rfl

/-- Every field is unknown, zero, or the default that stands in for an unknown one. -/
structure IsDefault (r : Recovered) : Prop where
  verb : r.verb = none ∨ r.verb = some .jump
  gravity : r.gravity = none ∨ r.gravity = some .normal
  world : r.world = none ∨ r.world = some (.known .colorsAlive)
  chaos : r.chaos = 0
  seed : r.seed = 0

theorem isDefault_of_isBlank {r : Recovered} (h : r.isBlank = true) :
    r.IsDefault ↔ r = unknown := by
  rw [eq_unknown_iff, and_iff_right h]
  obtain ⟨hverb, hgravity, hworld, hseed⟩ := isBlank_iff.mp h
  exact ⟨IsDefault.chaos, fun hchaos =>
    ⟨.inl hverb, .inl hgravity, .inl hworld, hchaos, hseed⟩⟩

end Recovered

theorem isBlank_ofSegments {verb gravity world seed : List Char} :
    (ofSegments (upperChars verb) (upperChars gravity) (upperChars world)
        (upperChars seed)).isBlank = true ↔ SaysNothing verb gravity world seed := by
  rw [Recovered.isBlank_iff]
  unfold ofSegments Verb.ofCode? Gravity.ofCode?
  simp only [find?_code_eq_none Vocabulary.mem_members, ofCode?_dropLast_eq_none,
    readSegment_upperChars, spelledSeed_eq_zero_iff]
  exact ⟨fun ⟨hverb, hgravity, hworld, hseed⟩ => ⟨hverb, hgravity, hworld, hseed⟩,
    fun h => ⟨h.verb, h.gravity, h.world, h.seed⟩⟩

/-- The blank texts are the silent ones. -/
theorem isBlank_decode_iff (s : String) : (decode s).isBlank = true ↔ Silent s := by
  rcases decode_cases s with ⟨verb, gravity, world, seed, hpieces, hdecode⟩ | ⟨hpieces, hdecode⟩
  · rw [hdecode, isBlank_ofSegments]
    refine ⟨fun h verb' gravity' world' seed' hpieces' => ?_,
      fun h => h verb gravity world seed hpieces⟩
    rw [hpieces] at hpieces'
    cases hpieces'
    exact h
  · rw [hdecode]
    exact iff_of_true rfl fun verb gravity world seed h =>
      absurd h (hpieces verb gravity world seed)

theorem chaos_decode_eq_zero_iff (s : String) : (decode s).chaos = 0 ↔ ¬Chaotic s := by
  rcases decode_cases s with ⟨verb, gravity, world, seed, hpieces, hdecode⟩ | ⟨hpieces, hdecode⟩
  · rw [hdecode]
    show chaosOfDigit (upperChars world).getLast? = 0 ↔ _
    rw [chaosOfDigit_eq_zero_iff, not_iff_not]
    refine ⟨fun h => ⟨verb, gravity, world, seed, hpieces, h⟩, ?_⟩
    rintro ⟨verb', gravity', world', seed', hpieces', h⟩
    rw [hpieces] at hpieces'
    cases hpieces'
    exact h
  · rw [hdecode]
    exact iff_of_true rfl fun ⟨verb, gravity, world, seed, h, _⟩ =>
      hpieces verb gravity world seed h

theorem decode_eq_unknown_iff (s : String) : decode s = .unknown ↔ Silent s ∧ ¬Chaotic s := by
  rw [Recovered.eq_unknown_iff, isBlank_decode_iff, chaos_decode_eq_zero_iff]

end SeedCode

open SeedCode

/-! ## Restoring the default game -/

namespace Choices

theorem heading_ofRecovered (r : Recovered) : (ofRecovered r).heading =
    { verb := r.verb.getD .jump, gravity := r.gravity.getD .normal,
      world := r.world.getD (.known .colorsAlive), digit := (ChaosLevel.clamp r.chaos).digit } := by
  have hverb : (ofRecovered r).verbs.head?.getD .jump = r.verb.getD .jump := by
    unfold ofRecovered
    dsimp only
    cases r.verb <;> rfl
  have hworld : WorldMark.ofText (ofRecovered r).world = r.world.getD (.known .colorsAlive) := by
    unfold ofRecovered
    dsimp only
    cases r.world with
    | none => decide +kernel
    | some w => exact WorldMark.ofText_word w
  unfold heading
  rw [hverb, hworld]
  rfl

theorem ofRecovered_unknown : ofRecovered .unknown = {} := by decide

theorem ofRecovered_of_isDefault {r : Recovered} (h : r.IsDefault) : ofRecovered r = {} := by
  obtain ⟨verb, gravity, world, chaos, seed⟩ := r
  obtain ⟨hverb, hgravity, hworld, rfl, rfl⟩ := h
  dsimp only at hverb hgravity hworld
  rcases hverb with rfl | rfl <;> rcases hgravity with rfl | rfl <;>
    rcases hworld with rfl | rfl <;> decide +kernel

theorem isDefault_of_heading {r : Recovered} {d : Nat} (hd : d ≤ 9) (hchaos : r.chaos = 11 * d)
    (hseed : r.seed = 0) (h : (ofRecovered r).heading = heading {}) : r.IsDefault := by
  have hdefault : heading {} = ⟨.jump, .normal, .known .colorsAlive, 0⟩ := by decide +kernel
  rw [heading_ofRecovered, hdefault, Heading.mk.injEq, hchaos, ChaosLevel.digit_clamp hd] at h
  obtain ⟨hverb, hgravity, hworld, rfl⟩ := h
  refine ⟨?_, ?_, ?_, hchaos, hseed⟩
  · simpa [Option.getD_eq_iff, or_comm] using hverb
  · simpa [Option.getD_eq_iff, or_comm] using hgravity
  · simpa [Option.getD_eq_iff, or_comm] using hworld

end Choices

namespace Game

theorem code_of_generate {settings : Settings} {c : Choices} {seed : Nat} {g : Game}
    (h : generate settings c seed = .ok g) : g.code = c.code seed := by
  obtain ⟨review, hg⟩ := generate_ok settings c seed
  obtain rfl := Except.ok.inj (hg.symm.trans h)
  rfl

theorem generate_inj {settings : Settings} {c c' : Choices} {seed seed' : Nat}
    (hs : seed < seedSpace) (hs' : seed' < seedSpace)
    (h : generate settings c seed = generate settings c' seed') :
    c.heading = c'.heading ∧ seed = seed' := by
  obtain ⟨review, hg⟩ := generate_ok settings c seed
  have hcode := (code_of_generate hg).symm.trans (code_of_generate (h.symm.trans hg))
  have hread := congrArg decode hcode
  unfold Choices.code at hread
  rw [decode_write c.heading_digit_le hs, decode_write c'.heading_digit_le hs'] at hread
  simp only [Recovered.mk.injEq, Option.some.injEq] at hread
  obtain ⟨hverb, hgravity, hworld, hdigit, hseed⟩ := hread
  refine ⟨?_, hseed⟩
  generalize c.heading = a at *
  generalize c'.heading = b at *
  obtain ⟨verb, gravity, world, digit⟩ := a
  rw [Heading.mk.injEq]
  exact ⟨hverb, hgravity, hworld, Nat.eq_of_mul_eq_mul_left (by decide) hdigit⟩

theorem decode_empty : decode "" = .unknown := by decide

theorem restore_empty (settings : Settings) : restore settings "" = generate settings {} 0 := by
  unfold restore ofRecovered
  rw [decode_empty, Choices.ofRecovered_unknown]
  rfl

/-- The texts that restore the default game. -/
theorem restore_eq_default_iff (settings : Settings) (s : String) :
    restore settings s = restore settings "" ↔ (decode s).IsDefault := by
  rw [restore_empty]
  unfold restore ofRecovered
  constructor
  · intro h
    obtain ⟨d, hd, hchaos⟩ := decode_chaos s
    obtain ⟨hheading, hseed⟩ := generate_inj (decode_seed_lt s) seedSpace_pos h
    exact Choices.isDefault_of_heading hd hchaos hseed hheading
  · intro h
    rw [Choices.ofRecovered_of_isDefault h, h.seed]

end Game

/-! ## Decoding on the command line -/

namespace CommandLine

namespace Terminal

theorem render_of_shown {t : Terminal} {s shown : String} (h : t.shown? s = some shown) :
    t.render s = .ok shown := by
  unfold render
  rw [h]

theorem render_of_refused {t : Terminal} {s : String} (h : t.shown? s = none) :
    t.render s = .error .unopenedTag := by
  unfold render
  rw [h]

end Terminal

theorem bracket_not_mem_int (n : Nat) : '[' ∉ (Datum.int n).plain.toList := by
  show '[' ∉ (String.ofList (Nat.toDigits 10 n)).toList
  rw [String.toList_ofList]
  exact fun h => absurd (Nat.isDigit_of_mem_toDigits (by decide) (by decide) h) (by decide)

theorem bracket_not_mem_field (r : SeedCode.Recovered) : ∀ field ∈ r.fields,
    '[' ∉ field.1.toList ∧ '[' ∉ field.2.plain.toList := by
  obtain ⟨verb, gravity, world, chaos, seed⟩ := r
  have hverb : '[' ∉ ((verb.map Vocabulary.datum).getD .null).plain.toList := by
    rcases verb with _ | v
    · decide
    · cases v <;> decide
  have hgravity : '[' ∉ ((gravity.map Vocabulary.datum).getD .null).plain.toList := by
    rcases gravity with _ | g
    · decide
    · cases g <;> decide
  have hworld : '[' ∉ ((world.map fun w => Datum.text w.word).getD .null).plain.toList := by
    rcases world with _ | (w | _)
    · decide
    · cases w <;> decide
    · decide
  unfold SeedCode.Recovered.fields
  simp only [List.forall_mem_cons, hverb, hgravity, hworld, bracket_not_mem_int, not_false_eq_true,
    and_true, List.not_mem_nil, false_implies, implies_true]
  decide

theorem exists_render_cell {t : Terminal} (ht : t.Plain) (r : SeedCode.Recovered) :
    ∀ row ∈ fieldRows r, ∀ cell ∈ row, ∃ shown, t.render cell = .ok shown := by
  intro row hrow cell hcell
  obtain ⟨⟨name, d⟩, hfield, rfl⟩ := List.mem_map.mp hrow
  obtain ⟨hname, hvalue⟩ := bracket_not_mem_field r _ hfield
  rcases List.mem_pair.mp hcell with rfl | rfl
  · obtain ⟨shown, hshown⟩ := ht.text _ hname
    exact ⟨shown, Terminal.render_of_shown hshown⟩
  · split
    · obtain ⟨shown, hshown⟩ := ht.dim "unknown" (by decide)
      exact ⟨shown, Terminal.render_of_shown hshown⟩
    · obtain ⟨shown, hshown⟩ := ht.text _ hvalue
      exact ⟨shown, Terminal.render_of_shown hshown⟩

/-- Decoding says by its exit code whether the code is blank, if the terminal shows the title. -/
theorem run_decode {t : Terminal} (ht : t.Plain) (settings : Settings) (entropy : UInt32)
    {s title : String} (h : t.shown? ("Decoded " ++ s) = some title) :
    ∃ output, (Command.decode s).run settings t entropy =
      .ok ⟨if (SeedCode.decode s).isBlank then 1 else 0, output⟩ := by
  obtain ⟨field, hfield⟩ := ht.text "Field" (by decide)
  obtain ⟨value, hvalue⟩ := ht.text "Value" (by decide)
  obtain ⟨rows, hrows⟩ := exists_mapM fun row hrow =>
    exists_mapM (exists_render_cell ht (SeedCode.decode s) row hrow)
  refine ⟨.report [.table title [field, value] rows], ?_⟩
  unfold Command.run decode report
  simp only [List.mapM_cons, List.mapM_nil, Block.shown, Terminal.render_of_shown h,
    Terminal.render_of_shown hfield, Terminal.render_of_shown hvalue, hrows]
  rfl

theorem run_decode_refused {t : Terminal} (settings : Settings) (entropy : UInt32) {s : String}
    (h : t.shown? ("Decoded " ++ s) = none) :
    (Command.decode s).run settings t entropy = .error .unopenedTag := by
  unfold Command.run decode report
  simp only [List.mapM_cons, List.mapM_nil, Block.shown, Terminal.render_of_refused h]
  rfl

theorem exists_title {t : Terminal} (ht : t.Plain) {s : String} (h : '[' ∉ s.toList) :
    ∃ title, t.shown? ("Decoded " ++ s) = some title := by
  refine ht.text _ ?_
  rw [String.toList_append, List.mem_append]
  exact not_or.mpr ⟨by decide, h⟩

theorem plain_bare : Terminal.bare.Plain := ⟨fun _ _ => ⟨_, rfl⟩, fun _ _ => ⟨_, rfl⟩⟩

end CommandLine

namespace Game

/-- A text is blank exactly if it is silent, and is read as the unknown code exactly if it is not
chaotic either, so that blank and unknown come apart exactly on the texts of which only the chaos
is read.  Decoding a text on the command line ends with code 1 if it is blank and with code 0 if
not, unless the terminal refuses the title, which it does not if no bracket was typed.  Every text
restores a game; it is the game of the default choices, as it is for the empty text, exactly if
each field is unknown, zero, or the default that stands in for an unknown one, which among the
blank texts are those that are read as the unknown code. -/
theorem blank_codes (settings : Settings) {terminal : CommandLine.Terminal}
    (ht : terminal.Plain) (s : String) :
    ((decode s).isBlank = true ↔ Silent s) ∧
    (decode s = .unknown ↔ Silent s ∧ ¬Chaotic s) ∧
    (((decode s).isBlank = true ↔ decode s = .unknown) ↔ ¬(Silent s ∧ Chaotic s)) ∧
    ('[' ∉ s.toList → ∃ title, terminal.shown? ("Decoded " ++ s) = some title) ∧
    (∀ entropy,
      (∃ title output, terminal.shown? ("Decoded " ++ s) = some title ∧
        (CommandLine.Command.decode s).run settings terminal entropy =
          .ok ⟨if (decode s).isBlank then 1 else 0, output⟩) ∨
      (terminal.shown? ("Decoded " ++ s) = none ∧
        (CommandLine.Command.decode s).run settings terminal entropy = .error .unopenedTag)) ∧
    ∃ g g₀, restore settings s = .ok g ∧ restore settings "" = .ok g₀ ∧
      generate settings {} 0 = .ok g₀ ∧ (g = g₀ ↔ (decode s).IsDefault) ∧
      ((decode s).isBlank = true → (g = g₀ ↔ decode s = .unknown)) := by
  have hblank := isBlank_decode_iff s
  have hunknown := decode_eq_unknown_iff s
  refine ⟨hblank, hunknown, ?_, CommandLine.exists_title ht, fun entropy => ?_, ?_⟩
  · rw [hblank, hunknown, iff_self_and, not_and]
  · rcases Option.eq_none_or_eq_some (terminal.shown? ("Decoded " ++ s)) with h | ⟨title, h⟩
    · exact .inr ⟨h, CommandLine.run_decode_refused settings entropy h⟩
    · obtain ⟨output, hrun⟩ := CommandLine.run_decode ht settings entropy h
      exact .inl ⟨title, output, h, hrun⟩
  · obtain ⟨g, hg, -⟩ := restore_idempotent settings s
    obtain ⟨g₀, hg₀, -⟩ := restore_idempotent settings ""
    have hsame : g = g₀ ↔ (decode s).IsDefault := by
      rw [← restore_eq_default_iff settings s, hg, hg₀, Except.ok.injEq]
    exact ⟨g, g₀, hg, hg₀, (restore_empty settings).symm.trans hg₀, hsame,
      fun hs => hsame.trans (Recovered.isDefault_of_isBlank hs)⟩

theorem blank_codes_unread :
    CommandLine.Terminal.bare.Plain ∧ Silent "XXXX-YYYY-ZZZZ0-0000" ∧
      (∃ output, (CommandLine.Command.decode "XXXX-YYYY-ZZZZ0-0000").run {} .bare 0 =
        .ok ⟨1, output⟩) ∧
      ∃ g, restore {} "XXXX-YYYY-ZZZZ0-0000" = .ok g ∧ restore {} "" = .ok g := by
  have hknown : decode "XXXX-YYYY-ZZZZ0-0000" = .unknown := by decide +kernel
  obtain ⟨hsilent, hunknown, -, hshown, hrun, g, g₀, hg, hg₀, -, -, hsame⟩ :=
    blank_codes {} CommandLine.plain_bare "XXXX-YYYY-ZZZZ0-0000"
  have hblank : (decode "XXXX-YYYY-ZZZZ0-0000").isBlank = true := by
    rw [hknown]
    rfl
  obtain ⟨title, htitle⟩ := hshown (by decide)
  obtain ⟨-, output, -, hend⟩ := (hrun 0).resolve_right fun hrefused => by
    rw [htitle] at hrefused
    cases hrefused.1
  rw [if_pos hblank] at hend
  exact ⟨CommandLine.plain_bare, (hunknown.mp hknown).1, ⟨output, hend⟩, g, hg,
    ((hsame hblank).mpr hknown) ▸ hg₀⟩

/-- A code of which only the chaos is read is blank and not unknown.  The code of the default game
is known in every field and restores the same game as the empty text. -/
theorem not_blank_iff_unknown :
    ((decode "XXXX-YYYY-ZZZZ5-0000").isBlank = true ∧
      decode "XXXX-YYYY-ZZZZ5-0000" = { Recovered.unknown with chaos := 55 }) ∧
    decode "JUMP-NORM-COLR0-0000" =
        ⟨some .jump, some .normal, some (.known .colorsAlive), 0, 0⟩ ∧
      restore {} "JUMP-NORM-COLR0-0000" = restore {} "" := by
  have hknown : decode "JUMP-NORM-COLR0-0000" =
      ⟨some .jump, some .normal, some (.known .colorsAlive), 0, 0⟩ := by decide +kernel
  refine ⟨⟨by decide +kernel, by decide +kernel⟩, hknown, ?_⟩
  rw [restore_eq_default_iff, hknown]
  exact ⟨.inr rfl, .inr rfl, .inr rfl, rfl, rfl⟩

end Game

end SeededPlay

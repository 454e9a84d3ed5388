/-
# `SeededPlay.Proofs.Game.Restore` — games out of their codes

A code carries less than the choices it was made for.  What it carries is again
choices, with defaults for the rest (`Choices.carried`), and all that is proved here
comes from two facts about them: they have the same code as the choices they were taken
from (`Choices.code_carried`), and the choices of any decoded text carry themselves
(`Choices.carried_ofRecovered`).

So restoring is a projection.  A game that was restored from any text at all is restored
from its own code unchanged, and a game that was generated comes back with everything
that its code says (`Game.restore_projection`).

## Which choices a code carries

A code has room for a verb, a gravity, a world, a chaos digit and a seed.  What is carried
has the heading that it was carried by (`heading_carried`), so writing its code gives the
same text, and a game of that code is the game of what the code carries (`restore_code`).
`Portable` choices are those whose other fields have the defaults that restoring would give
them; they come back as a whole.
-/
import SeededPlay.Proofs.Game.Readable
import SeededPlay.Proofs.SeedCode.Decode

namespace SeededPlay

/-! ## What a code carries -/

namespace Choices

/-- The choices that the code of some choices stands for. -/
def carried (c : Choices) : Choices where
  verbs := [c.verbs.head?.getD .jump]
  gravity := c.gravity
  world := (WorldMark.ofText c.world).word
  chaos := .clamp ((11 * c.chaos.digit : Nat) : Int)

theorem chaos_carried (c : Choices) :
    c.carried.chaos = .clamp ((11 * c.chaos.digit : Nat) : Int) := by
  unfold carried
  dsimp only

theorem heading_carried (c : Choices) : c.carried.heading = c.heading := by
  have hdigit : c.carried.chaos.digit = c.chaos.digit := by
    rw [chaos_carried, ChaosLevel.digit_clamp c.chaos.digit_le]
  unfold heading
  rw [hdigit]
  unfold carried
  dsimp only
  rw [WorldMark.ofText_word, List.head?_cons, Option.getD_some]

theorem code_carried (c : Choices) (seed : Nat) : c.carried.code seed = c.code seed := by
  unfold code
  rw [heading_carried]

theorem ofRecovered_heading (c : Choices) (seed : Nat) :
    ofRecovered ⟨some c.heading.verb, some c.heading.gravity, some c.heading.world,
      11 * c.heading.digit, seed⟩ = c.carried := by
  unfold ofRecovered heading carried
  simp only [Option.map_some, Option.getD_some]

theorem carried_ofRecovered {r : SeedCode.Recovered} {d : Nat} (hd : d ≤ 9)
    (hchaos : r.chaos = 11 * d) : (ofRecovered r).carried = ofRecovered r := by
  have hverb : [(ofRecovered r).verbs.head?.getD .jump] = (ofRecovered r).verbs := by
    unfold ofRecovered
    dsimp only
    cases r.verb <;> rfl
  have hworld : (WorldMark.ofText (ofRecovered r).world).word = (ofRecovered r).world := by
    unfold ofRecovered
    dsimp only
    cases r.world with
    | none => decide +kernel
    | some w => rw [Option.map_some, Option.getD_some, WorldMark.ofText_word]
  have hlevel : (ofRecovered r).chaos = .clamp ((11 * d : Nat) : Int) := by
    unfold ofRecovered
    rw [hchaos]
  unfold carried
  rw [hverb, hworld, hlevel, ChaosLevel.digit_clamp hd]
  unfold ofRecovered
  rw [hchaos]

/-- Choices that a code carries completely: one verb, a level of a digit, a world with a
mark of its own, and defaults for everything else. -/
structure Portable (c : Choices) : Prop where
  verbs : ∃ v, c.verbs = [v]
  chaos : 11 ∣ c.chaos.value ∧ c.chaos.value ≤ 99
  world : c.world ∈ ["colors_alive", "sound_solid", "memory_touch", "time_uneven", "custom"]
  silent : c =
    { verbs := c.verbs, gravity := c.gravity, world := c.world, chaos := c.chaos : Choices }

theorem carried_of_portable {c : Choices} (h : c.Portable) : c.carried = c := by
  obtain ⟨v, hv⟩ := h.verbs
  have hverb : [c.verbs.head?.getD .jump] = c.verbs := by
    rw [hv, List.head?_cons, Option.getD_some]
  have hworld : (WorldMark.ofText c.world).word = c.world := by
    have hall : ∀ w ∈ ["colors_alive", "sound_solid", "memory_touch", "time_uneven", "custom"],
        (WorldMark.ofText w).word = w := by
      intro w hw
      rw [WorldMark.word_ofText]
      simp only [List.mem_cons, List.not_mem_nil, or_false] at hw
      rcases hw with rfl | rfl | rfl | rfl | rfl <;> decide +kernel
    exact hall c.world h.world
  have hlevel : ChaosLevel.clamp ((11 * c.chaos.digit : Nat) : Int) = c.chaos := by
    have hexact := c.chaos.near_digit.2.2 h.chaos.1
    refine ChaosLevel.ext ?_
    rw [hexact, ChaosLevel.value_clamp c.chaos.le_most]
  unfold carried
  rw [hverb, hworld, hlevel]
  exact h.silent.symm

end Choices

/-! ## Restoring -/

namespace Game

theorem restore_code (settings : Settings) (c : Choices) {seed : Nat}
    (hs : seed < SeedCode.seedSpace) :
    restore settings (c.code seed) = generate settings c.carried seed := by
  unfold restore ofRecovered Choices.code
  rw [SeedCode.decode_write c.heading_digit_le hs, Choices.ofRecovered_heading]

/-- Any text can be restored from, and what comes out is restored from its code. -/
theorem restore_idempotent (settings : Settings) (s : String) :
    ∃ g, restore settings s = .ok g ∧ restore settings g.code = .ok g := by
  obtain ⟨d, hd, hchaos⟩ := SeedCode.decode_chaos s
  obtain ⟨review, hg⟩ :=
    generate_ok settings (.ofRecovered (SeedCode.decode s)) (SeedCode.decode s).seed
  refine ⟨_, hg, ?_⟩
  show restore settings (Choices.code (.ofRecovered (SeedCode.decode s)) _) = _
  rw [restore_code settings _ (SeedCode.decode_seed_lt s), Choices.carried_ofRecovered hd hchaos]
  exact hg

theorem restore_eq_create (settings : Settings) (s : String) (entropy : UInt32) :
    restore settings s = create settings (.ofRecovered (SeedCode.decode s))
      (some (.int (SeedCode.decode s).seed)) entropy := by
  unfold create
  simp only [SeedCode.normalizeSeed_of_lt (SeedCode.decode_seed_lt s)]
  rfl

theorem exists_normalizeSeed {n : Int} (h : n.natAbs < 10 ^ 300) :
    ∃ seed < SeedCode.seedSpace, SeedCode.normalizeSeed (.int n) = .ok seed := by
  have hpow : 10 ^ (3 * 100) ≤ 2 ^ (10 * 100) := by
    rw [Nat.pow_mul, Nat.pow_mul]
    exact Nat.pow_le_pow_left (by decide) 100
  have hmore : 2 ^ (10 * 100) ≤ 2 ^ 1023 := Nat.pow_le_pow_right (by decide) (by decide)
  have hlt : n.natAbs < 2 ^ 1023 := Nat.lt_of_lt_of_le h (hpow.trans hmore)
  obtain ⟨x, hx⟩ := Binary64.exists_ofInt? hlt
  exact ⟨_, SeedCode.seedOfReal_lt x, SeedCode.normalizeSeed_of_toReal (Datum.toReal_int hx)⟩

/-- The part of a game that its code keeps. -/
structure Kept (g r : Game) : Prop where
  code : r.code = g.code
  id : r.id = g.id
  seed : r.seed = g.seed
  gravity : r.world.gravity = g.world.gravity
  verbs : ∃ v, g.verbs.head? = some v ∧ r.verbs = [v]

/-- Restoring is a projection, and agrees with generating.  A game that was restored from
any text is restored from its code as it is.  A game that was generated comes back with
its code, its id, its seed, its gravity and its leading verb; a session of it keys the
chaos with its seed; and it comes back as it is if the code carries all the choices. -/
theorem restore_projection (settings : Settings) :
    (∀ s, ∃ g, restore settings s = .ok g ∧ restore settings g.code = .ok g) ∧
    ∀ c : Choices, c.verbs ≠ [] → ∀ n : Int, n.natAbs < 10 ^ 300 → ∀ entropy,
      ∃ g r, create settings c (some (.int n)) entropy = .ok g ∧
        restore settings g.code = .ok r ∧ Kept g r ∧
        (∀ strict, ∃ session, Session.start g strict = .ok session ∧
          (session.chaos.seed : Int) = g.seed) ∧
        (c.Portable → r = g) := by
  refine ⟨restore_idempotent settings, fun c hverbs n hn entropy => ?_⟩
  obtain ⟨seed, hs, hseed⟩ := exists_normalizeSeed hn
  obtain ⟨review, hg⟩ := generate_ok settings c seed
  obtain ⟨review', hr⟩ := generate_ok settings c.carried seed
  have hcreate : create settings c (some (.int n)) entropy = generate settings c seed := by
    unfold create
    simp only [hseed]
    rfl
  refine ⟨_, _, hcreate.trans hg, (restore_code settings c hs).trans hr, ?_, ?_, ?_⟩
  · obtain ⟨v, vs, hv⟩ := List.exists_cons_of_ne_nil hverbs
    have hhead : c.verbs.head? = some v := by rw [hv, List.head?_cons]
    refine ⟨c.code_carried seed, rfl, rfl, rfl, v, hhead, ?_⟩
    show [c.verbs.head?.getD .jump] = [v]
    rw [hhead, Option.getD_some]
  · intro strict
    obtain ⟨session, hstart, hkey⟩ :=
      Session.start_ok (g := { draft settings c seed with review }) (c.readable_rules strict)
    refine ⟨session, hstart, ?_⟩
    rw [hkey]
    show ((SeedCode.decode (SeedCode.write c.heading seed)).seed : Int) = seed
    rw [SeedCode.decode_write c.heading_digit_le hs]
  · intro hportable
    have hsame : generate settings c.carried seed = generate settings c seed := by
      rw [Choices.carried_of_portable hportable]
    exact Except.ok.inj (hr.symm.trans (hsame.trans hg))

theorem restore_projection_examples :
    (∃ g r, create {} SeedCode.mirrorGarden (some (.int 48213)) 0 = .ok g ∧
      restore {} g.code = .ok r ∧ Kept g r) ∧
    ∃ g, create {} { verbs := [.dash], world := "custom", chaos := ⟨88, by decide⟩ }
        (some (.int (-5))) 0 = .ok g ∧ restore {} g.code = .ok g := by
  have hsmall : ∀ n : Int, n.natAbs < 10 ^ 5 → n.natAbs < 10 ^ 300 := fun n hn =>
    Nat.lt_of_lt_of_le hn (Nat.pow_le_pow_right (by decide) (by decide))
  obtain ⟨-, hgenerated⟩ := restore_projection {}
  refine ⟨?_, ?_⟩
  · obtain ⟨g, r, hg, hr, hkept, -⟩ := hgenerated SeedCode.mirrorGarden (List.cons_ne_nil _ _)
      48213 (hsmall 48213 (by decide)) 0
    exact ⟨g, r, hg, hr, hkept⟩
  · obtain ⟨g, r, hg, hr, -, -, hsame⟩ := hgenerated
      { verbs := [.dash], world := "custom", chaos := ⟨88, by decide⟩ } (List.cons_ne_nil _ _)
      (-5) (hsmall (-5) (by decide)) 0
    rw [hsame ⟨⟨_, rfl⟩, ⟨⟨8, rfl⟩, by decide⟩, by decide, rfl⟩] at hr
    exact ⟨g, hg, hr⟩

end Game

end SeededPlay

/-
# `SeededPlay.Proofs.Game.Payload` — records survive being written and read again

Every record that makes up a game is read back from its own fields as it was, and so is a
game (`Game.undoes_dump`), whatever its values are: games carry no promise that reading
could break.  Choices promise one to three verbs without repetitions.  Reading gives them
from a list that may repeat some (`Choices.readVerbs_eq_valid`), and what it gives is read
back as it is.

## Why choices need more

A vocabulary occurs in data as its words.  Words are dropped as their members are
(`distinctFrom_words`), and if what is left is all words, so is what was dropped
(`words_of_distinctFrom`); hence verbs that are read are the members of the list that was
given, repetitions dropped, and one to three verbs without repetitions are read back as they
are.  The other fields of choices either are closed vocabularies or are taken as they are,
except for the chaos level, which is clamped once and stays (`chaos_of_read`).
-/
import SeededPlay.Game.Game
import SeededPlay.Proofs.Record.Reload
import SeededPlay.Proofs.SeedCode.Code

namespace SeededPlay

open Record

/-! ## The parts of a game -/

theorem Rule.undoes_dump : Undoes Rule.read Rule.dump := by
  intro r
  have hcondition := undoes_text.optional nofun r.condition
  simp [Rule.read, Rule.dump, undoes_text _, hcondition]

theorem FeedbackLoop.undoes_dump : Undoes FeedbackLoop.read FeedbackLoop.dump := by
  intro l
  simp [FeedbackLoop.read, FeedbackLoop.dump, undoes_term _, undoes_text _, undoes_text.list _]

theorem LoopSet.undoes_dump : Undoes LoopSet.read LoopSet.dump := by
  intro s
  simp [LoopSet.read, LoopSet.dump, FeedbackLoop.undoes_dump.list _]

theorem World.undoes_dump : Undoes World.read World.dump := by
  intro w
  simp [World.read, World.dump, World.params, undoes_term _, undoes_int _, undoes_real.fields _]

theorem DifficultyPlan.undoes_dump : Undoes DifficultyPlan.read DifficultyPlan.dump := by
  intro p
  simp [DifficultyPlan.read, DifficultyPlan.dump, undoes_term _, undoes_real.list _]

theorem ChaosConfig.undoes_dump : Undoes ChaosConfig.read ChaosConfig.dump := by
  intro c
  have hoptional := undoes_int.optional nofun
  simp [ChaosConfig.read, ChaosConfig.dump, undoes_term _, undoes_int _, undoes_term.list _,
    undoes_text.list _, undoes_int.fields _, hoptional _]

theorem Review.undoes_dump : Undoes Review.read Review.dump := by
  intro r
  simp [Review.read, Review.dump, undoes_bool _, undoes_text.list _]

/-- A game is read back from its own fields as it was. -/
theorem Game.undoes_dump : Undoes Game.read Game.dump := by
  intro g
  simp [Game.read, Game.dump, undoes_text _, undoes_term _, undoes_int _, undoes_term.list _,
    World.undoes_dump _, Rule.undoes_dump.list _, LoopSet.undoes_dump _,
    DifficultyPlan.undoes_dump _, ChaosConfig.undoes_dump _, Review.undoes_dump _]

/-! ## Verbs without repetitions -/

theorem Vocabulary.same_datum {α : Type} [Vocabulary α] (a b : α) :
    (datum a).same (datum b) = true ↔ a = b := by
  constructor
  · intro h
    exact word_injective (beq_iff_eq.mp h)
  · rintro rfl
    exact beq_self_eq_true (word a)

theorem Vocabulary.occursIn_words {α : Type} [Vocabulary α] (a : α) (seen : List α) :
    (datum a).occursIn (seen.map datum) = true ↔ a ∈ seen := by
  unfold Datum.occursIn
  simp only [List.any_map, List.any_eq_true, Function.comp_apply, same_datum, exists_eq_right]

theorem Vocabulary.eq_datum_of_same {α : Type} [Vocabulary α] {a : α} {d : Datum}
    (h : (datum a).same d = true) : d = datum a := by
  cases d with
  | text s => exact congrArg Datum.text (beq_iff_eq.mp h).symm
  | _ => cases h

theorem nodup_eraseDups {α : Type} [BEq α] [LawfulBEq α] (xs : List α) : xs.eraseDups.Nodup := by
  induction hn : xs.length using Nat.strongRecOn generalizing xs with
  | ind n ih =>
    cases xs with
    | nil => exact List.nodup_nil
    | cons x xs =>
      rw [List.eraseDups_cons, List.nodup_cons]
      refine ⟨?_, ih _ ?_ _ rfl⟩
      · rw [List.mem_eraseDups, List.mem_filter]
        simp
      · rw [← hn]
        exact Nat.lt_succ_of_le (List.length_filter_le _ xs)

theorem eraseDups_of_nodup {α : Type} [BEq α] [LawfulBEq α] {xs : List α} (h : xs.Nodup) :
    xs.eraseDups = xs := by
  induction xs with
  | nil => rfl
  | cons x xs ih =>
    obtain ⟨hx, hxs⟩ := List.nodup_cons.mp h
    have hkeep : xs.filter (fun y => !y == x) = xs := by
      refine List.filter_eq_self.mpr fun y hy => ?_
      have hne : y ≠ x := fun heq => hx (heq ▸ hy)
      simp [hne]
    rw [List.eraseDups_cons, hkeep, ih hxs]

namespace Choices

theorem distinctFrom_words (seen vs : List Verb) :
    distinctFrom (seen.map Vocabulary.datum) (vs.map Vocabulary.datum) =
      (vs.filter (· ∉ seen)).eraseDups.map Vocabulary.datum := by
  induction vs generalizing seen with
  | nil => rfl
  | cons v vs ih =>
    rw [List.map_cons, distinctFrom]
    by_cases hv : v ∈ seen
    · rw [if_pos ((Vocabulary.occursIn_words v seen).mpr hv), ih, List.filter_cons_of_neg]
      simpa using hv
    · have hkeep : List.filter (· ∉ seen) (v :: vs) = v :: vs.filter (· ∉ seen) :=
        List.filter_cons_of_pos (decide_eq_true hv)
      have hrest : (vs.filter (· ∉ seen)).filter (fun w => !w == v) =
          vs.filter (· ∉ v :: seen) := by
        rw [List.filter_filter]
        refine List.filter_congr fun w _ => ?_
        simp [beq_eq_decide]
      rw [if_neg (mt (Vocabulary.occursIn_words v seen).mp hv), hkeep, List.eraseDups_cons, hrest,
        List.map_cons, ← ih]
      rfl

theorem words_of_distinctFrom (seen : List Verb) {xs : List Verb} {ds : List Datum}
    (h : distinctFrom (seen.map Vocabulary.datum) ds = xs.map Vocabulary.datum) :
    ∃ vs : List Verb, ds = vs.map Vocabulary.datum := by
  induction ds generalizing seen xs with
  | nil => exact ⟨[], rfl⟩
  | cons d ds ih =>
    rw [distinctFrom] at h
    by_cases hd : d.occursIn (seen.map Vocabulary.datum) = true
    · -- A repeated item is the same as a word before it, and only words are the same as words.
      rw [if_pos hd] at h
      obtain ⟨vs, rfl⟩ := ih seen h
      obtain ⟨e, he, hsame⟩ := List.any_eq_true.mp hd
      obtain ⟨v, -, rfl⟩ := List.mem_map.mp he
      exact ⟨v :: vs, congrArg (· :: vs.map Vocabulary.datum) (Vocabulary.eq_datum_of_same hsame)⟩
    · rw [if_neg hd] at h
      cases xs with
      | nil => cases h
      | cons x xs =>
        obtain ⟨rfl, hrest⟩ := List.cons.inj h
        obtain ⟨vs, rfl⟩ := ih (x :: seen) hrest
        exact ⟨x :: vs, rfl⟩

/-- Verbs that are read are the members of the list that was given, repetitions dropped. -/
theorem readVerbs_eq_valid {d : Datum} {xs : List Verb} (h : readVerbs d = .valid xs) :
    ∃ vs : List Verb, d = .list (vs.map Vocabulary.datum) ∧ xs = vs.eraseDups ∧
      1 ≤ xs.length ∧ xs.length ≤ 3 := by
  cases d with
  | list ds =>
    obtain ⟨hmost, hleast, hitems⟩ := sizedList_eq_valid h
    have hwords := itemsFrom_term_eq_valid hitems
    obtain ⟨vs, rfl⟩ := words_of_distinctFrom [] hwords
    have hdistinct := distinctFrom_words [] vs
    rw [List.map_nil, hwords, List.filter_eq_self.mpr (by simp)] at hdistinct
    have hxs : xs = vs.eraseDups :=
      List.map_injective_iff.mpr (fun _ _ h => Vocabulary.word_injective (Datum.text.inj h)) hdistinct
    rw [hwords, List.length_map] at hmost
    exact ⟨vs, rfl, hxs, hleast, hmost⟩
  | _ => cases h

theorem readVerbs_words {vs : List Verb} (hleast : 1 ≤ vs.length) (hmost : vs.length ≤ 3)
    (hnodup : vs.Nodup) : readVerbs (.list (vs.map Vocabulary.datum)) = .valid vs := by
  have hdistinct := distinctFrom_words [] vs
  rw [List.map_nil, List.filter_eq_self.mpr (by simp), eraseDups_of_nodup hnodup] at hdistinct
  unfold readVerbs dropRepeated
  dsimp only
  rw [hdistinct, sizedList, if_neg (by rw [List.length_map]; omega), undoes_term.itemsFrom,
    Check.andThen, if_neg (Nat.not_lt.mpr hleast)]

/-! ## Choices -/

/-- Choices whose verbs keep the promise are read back from their own fields. -/
theorem read_dump {c : Choices} (hleast : 1 ≤ c.verbs.length) (hmost : c.verbs.length ≤ 3)
    (hnodup : c.verbs.Nodup) : read c.dump = .valid c := by
  have hchaos : readChaos c.chaos.datum = .valid c.chaos :=
    congrArg Check.valid (ChaosLevel.ofDatum_datum c.chaos)
  have hverbs := readVerbs_words hleast hmost hnodup
  simp [read, dump, undoes_term _, undoes_text _, undoes_term.list _, hverbs, hchaos]

theorem read_eq_valid {d : Datum} {c : Choices} (h : read d = .valid c) :
    ∃ fs, d = .record fs ∧ optionalField fs "verbs" readVerbs [.jump] = .valid c.verbs ∧
      optionalField fs "chaos_level" readChaos .none = .valid c.chaos := by
  cases d with
  | record fs =>
    -- The fields are peeled off from the last one on: after the verbs come eleven others.
    obtain ⟨_, _, h, hchaos, _⟩ := Check.seq_eq_valid h
    iterate 11 obtain ⟨_, _, h, -, _⟩ := Check.seq_eq_valid h
    obtain ⟨_, _, h, hverbs, _⟩ := Check.seq_eq_valid h
    obtain ⟨_, _, h, -, _⟩ := Check.seq_eq_valid h
    obtain ⟨_, -, _⟩ := Check.map_eq_valid h
    subst_vars
    exact ⟨fs, rfl, hverbs, hchaos⟩
  | _ => cases h

theorem verbs_of_read {fs : List (String × Datum)} {c : Choices}
    (h : optionalField fs "verbs" readVerbs [.jump] = .valid c.verbs) :
    (1 ≤ c.verbs.length ∧ c.verbs.length ≤ 3 ∧ c.verbs.Nodup) ∧
      ∀ d, Fields.get? fs "verbs" = some d →
        ∃ vs : List Verb, d = .list (vs.map Vocabulary.datum) ∧ c.verbs = vs.eraseDups := by
  rcases optionalField_eq_valid h with ⟨d, hget, hread⟩ | ⟨hget, hverbs⟩
  · obtain ⟨vs, hd, hverbs, hleast, hmost⟩ := readVerbs_eq_valid hread
    refine ⟨⟨hleast, hmost, hverbs ▸ nodup_eraseDups vs⟩, fun d' hget' => ?_⟩
    obtain rfl := Option.some.inj (hget.symm.trans hget')
    exact ⟨vs, hd, hverbs⟩
  · rw [hverbs]
    refine ⟨by decide, fun d hd => ?_⟩
    rw [hget] at hd
    cases hd

theorem chaos_of_read {fs : List (String × Datum)} {c : Choices}
    (h : optionalField fs "chaos_level" readChaos .none = .valid c.chaos) :
    c.chaos = ((Fields.get? fs "chaos_level").map ChaosLevel.ofDatum).getD .none := by
  rcases optionalField_eq_valid h with ⟨d, hget, hread⟩ | ⟨hget, hchaos⟩
  · rw [hget]
    exact (Check.valid.inj hread).symm
  · rw [hget]
    exact hchaos

end Choices

/-- Choices that are accepted have one to three different verbs, namely those of the list
that was given in the order in which they first came, and a chaos level up to a hundred,
and they are read back from their own fields.  So is every game, created or loaded. -/
theorem Game.payloads_reload :
    (∀ d c, Choices.read d = .valid c → ∃ fs, d = .record fs ∧
      (1 ≤ c.verbs.length ∧ c.verbs.length ≤ 3 ∧ c.verbs.Nodup) ∧
      (∀ raw, Fields.get? fs "verbs" = some raw →
        ∃ vs : List Verb, raw = .list (vs.map Vocabulary.datum) ∧ c.verbs = vs.eraseDups) ∧
      c.chaos = ((Fields.get? fs "chaos_level").map ChaosLevel.ofDatum).getD .none ∧
      c.chaos.value ≤ 100 ∧ Choices.read c.dump = .valid c) ∧
    (∀ g : Game, Game.read g.dump = .valid g) := by
  refine ⟨fun d c h => ?_, Game.undoes_dump⟩
  obtain ⟨fs, hd, hverbs, hchaos⟩ := Choices.read_eq_valid h
  obtain ⟨⟨hleast, hmost, hnodup⟩, hgiven⟩ := Choices.verbs_of_read hverbs
  exact ⟨fs, hd, ⟨hleast, hmost, hnodup⟩, hgiven, Choices.chaos_of_read hchaos, c.chaos.le_most,
    Choices.read_dump hleast hmost hnodup⟩

theorem Game.payloads_reload_repeated :
    ∃ c, Choices.read (.record [("verbs", .list [.text "dash", .text "jump", .text "dash"]),
        ("chaos_level", .int 250)]) = .valid c ∧
      c.verbs = [.dash, .jump] ∧ c.chaos.value ≤ 100 ∧ Choices.read c.dump = .valid c := by
  have hread : Choices.read (.record [("verbs", .list [.text "dash", .text "jump", .text "dash"]),
      ("chaos_level", .int 250)]) =
        .valid { ({} : Choices) with verbs := [.dash, .jump], chaos := .ofDatum (.int 250) } := rfl
  obtain ⟨-, -, -, -, -, hlevel, hreload⟩ := Game.payloads_reload.1 _ _ hread
  exact ⟨_, hread, rfl, hlevel, hreload⟩

end SeededPlay

/-
# `SeededPlay.Proofs.Play.Ledger` — what a state can be

Rules, clock and chaos all write into the one state of a session.  The ledger says what
such a state can be: score, health and level are what they were at the start with the
amounts of the returned effects added in order, the clock is the sum of its movements, the
flags that are up are those of returned effects and that of a shifted goal, and nothing
else has changed (`Ledger`).

An effect adds its amount or its flag (`Ledger.apply`), a movement of the clock adds what
it moved (`Ledger.advance`), and a mutation that begins adds its flag if it is the one that
shifts the goal (`Ledger.begin`).  That a session writes nothing else is a matter of runs.

## Sums in the order of play

Amounts are integers and doubles, and adding doubles is not associative.  So the ledger keeps
no balance but the list of amounts, and says that the state is the start with all of them
added from left to right (`plusAll`); entering one more at the end is one more addition.
What counts as a positive number is present (`isPresent_of_positive?`), and no zero is
positive, so the clock is moved by exactly the positive amounts (`GameState.advance_spec`).
A flag that something put up is still up when more has happened (`Raised.mono`).
-/
import SeededPlay.Proofs.Play.Interpreter
import SeededPlay.Proofs.Chaos.Frame
import SeededPlay.Play.Session

namespace SeededPlay

/-! ## Amounts -/

namespace Number

theorem extent?_zero : (Number.int 0).extent? = some (.point 0) := by
  unfold extent? Binary64.extentOfInt
  dsimp only
  rw [Int.zero_mul]

theorem isNonzero_of_pos {n : Number} (h : (Number.int 0).lt n = true) : n.isNonzero = true := by
  have hzero : (Extent.point 0).lt (.point 0) = false := rfl
  unfold lt at h
  rw [extent?_zero] at h
  cases n with
  | int m =>
    by_cases hm : m = 0
    · rw [hm, extent?_zero] at h
      exact absurd h (Bool.eq_false_iff.mp hzero)
    · exact bne_iff_ne.mpr hm
  | real x =>
    cases x with
    | finite negative units =>
      cases units with
      | zero =>
        have hx : (Number.real (.finite negative 0)).extent? = some (.point 0) := by
          cases negative <;> rfl
        rw [hx] at h
        exact absurd h (Bool.eq_false_iff.mp hzero)
      | succ k => rfl
    | _ => rfl

end Number

namespace Datum

/-- Numbers added to a value one after another. -/
def plusAll (d : Datum) (amounts : List Number) : Except Fault Datum := amounts.foldlM plus d

/-- The amount by which a clock is moved: only what counts as a positive number moves it. -/
def positive? (d : Datum) : Option Number := d.number?.filter (Number.int 0).lt

theorem plusAll_append {d d' d'' : Datum} {xs ys : List Number} (hxs : d.plusAll xs = .ok d')
    (hys : d'.plusAll ys = .ok d'') : d.plusAll (xs ++ ys) = .ok d'' := by
  unfold plusAll
  rw [List.foldlM_append]
  exact bind_eq_ok.mpr ⟨d', hxs, hys⟩

theorem plusAll_singleton (d : Datum) (n : Number) : d.plusAll [n] = d.plus n := by
  unfold plusAll
  rw [List.foldlM_cons]
  cases d.plus n <;> rfl

theorem isPresent_of_positive? {d : Datum} {n : Number} (h : d.positive? = some n) :
    d.isPresent = true := by
  obtain ⟨hn, hpos⟩ := Option.filter_eq_some_iff.mp h
  have hnonzero := Number.isNonzero_of_pos hpos
  cases d with
  | bool b =>
    obtain rfl := Option.some.inj hn
    cases b with
    | true => rfl
    | false => exact absurd hnonzero Bool.false_ne_true
  | number m =>
    obtain rfl := Option.some.inj hn
    exact hnonzero
  | _ => cases hn

end Datum

/-- The clock is moved by the positive amounts, and nothing else moves with it. -/
theorem GameState.advance_spec {s s' : GameState} {delta : Datum} (h : s.advance delta = .ok s') :
    s.elapsed.plusAll delta.positive?.toList = .ok s'.elapsed ∧
      s' = { s with elapsed := s'.elapsed } := by
  unfold advance at h
  cases hpresent : delta.isPresent with
  | false =>
    have hnone : delta.positive? = none := by
      rw [← Option.not_isSome_iff_eq_none, Option.isSome_iff_exists]
      rintro ⟨n, hn⟩
      rw [Datum.isPresent_of_positive? hn] at hpresent
      exact Bool.noConfusion hpresent
    rw [hpresent] at h
    obtain rfl := Except.ok.inj h
    rw [hnone]
    exact ⟨rfl, rfl⟩
  | true =>
    rw [hpresent] at h
    obtain ⟨n, hn, h⟩ := bind_eq_ok.mp h
    have hnumber : delta.number? = some n := by
      unfold Datum.toNumber at hn
      split at hn
      · rename_i hnumber
        exact hnumber.trans (congrArg some (Except.ok.inj hn))
      · cases hn
    have hpositive : delta.positive? = if (Number.int 0).lt n = true then some n else none := by
      unfold Datum.positive?
      rw [hnumber, Option.filter_some]
    rw [hpositive]
    split at h
    · rename_i hpos
      obtain ⟨t, ht, h⟩ := bind_eq_ok.mp h
      obtain rfl := Except.ok.inj h
      rw [if_pos hpos, Option.toList_some, Datum.plusAll_singleton]
      exact ⟨ht, rfl⟩
    · rename_i hpos
      obtain rfl := Except.ok.inj h
      rw [if_neg hpos]
      exact ⟨rfl, rfl⟩

namespace Effect

/-- What an effect adds to the number of a name. -/
def amountOn (name : String) : Effect → Option Number
  | .arithmetic target sign amount => if target = name then some (sign.apply amount) else none
  | _ => none

/-- What effects add to the number of a name, in order. -/
def amounts (name : String) (effects : List Effect) : List Number :=
  effects.filterMap (amountOn name)

theorem amounts_concat (name : String) (effects : List Effect) (e : Effect) :
    amounts name (effects ++ [e]) = amounts name effects ++ (e.amountOn name).toList := by
  unfold amounts
  rw [List.filterMap_append, List.filterMap_cons, List.filterMap_nil]
  cases e.amountOn name <;> rfl

/-- What an effect does to a state: its amount is added, its flag raised, and all else
stays. -/
structure Applied (e : Effect) (s s' : GameState) : Prop where
  score : s.score.plusAll (e.amountOn "score").toList = .ok s'.score
  health : s.health.plusAll (e.amountOn "health").toList = .ok s'.health
  level : s.level.plusAll (e.amountOn "level").toList = .ok s'.level
  flags : (∃ word, e = .flag word ∧ raiseFlag s word = .ok s') ∨
    (∀ word, e ≠ .flag word) ∧ s'.flags = s.flags
  elapsed : s'.elapsed = s.elapsed
  combo : s'.combo = s.combo
  entities : s'.entities = s.entities
  abilities : s'.abilities = s.abilities
  extra : s'.extra = s.extra

theorem apply_spec {e : Effect} {s s' : GameState} (h : e.apply s = .ok s') : e.Applied s s' := by
  unfold apply at h
  split at h
  · obtain ⟨d, hd, h⟩ := bind_eq_ok.mp h
    obtain rfl := Except.ok.inj h
    rw [← Datum.plusAll_singleton] at hd
    exact ⟨hd, rfl, rfl, .inr ⟨fun _ => Effect.noConfusion, rfl⟩, rfl, rfl, rfl, rfl, rfl⟩
  · obtain ⟨d, hd, h⟩ := bind_eq_ok.mp h
    obtain rfl := Except.ok.inj h
    rw [← Datum.plusAll_singleton] at hd
    exact ⟨rfl, hd, rfl, .inr ⟨fun _ => Effect.noConfusion, rfl⟩, rfl, rfl, rfl, rfl, rfl⟩
  · obtain ⟨d, hd, h⟩ := bind_eq_ok.mp h
    obtain rfl := Except.ok.inj h
    rw [← Datum.plusAll_singleton] at hd
    exact ⟨rfl, rfl, hd, .inr ⟨fun _ => Effect.noConfusion, rfl⟩, rfl, rfl, rfl, rfl, rfl⟩
  · rename_i word
    obtain ⟨fields, -, rfl⟩ := raiseFlag_eq_ok.mp h
    exact ⟨rfl, rfl, rfl, .inl ⟨word, rfl, h⟩, rfl, rfl, rfl, rfl, rfl⟩
  · rename_i hscore hhealth hlevel hflag
    obtain rfl := Except.ok.inj h
    have hnone : ∀ name ∈ ["score", "health", "level"], e.amountOn name = none := by
      intro name hname
      cases e with
      | arithmetic target sign amount =>
        refine if_neg fun htarget => ?_
        subst htarget
        simp only [List.mem_cons, List.not_mem_nil, or_false] at hname
        rcases hname with rfl | rfl | rfl
        · exact hscore sign amount rfl
        · exact hhealth sign amount rfl
        · exact hlevel sign amount rfl
      | _ => rfl
    have hkeep : ∀ d : Datum, ∀ name ∈ ["score", "health", "level"],
        d.plusAll (e.amountOn name).toList = .ok d := by
      intro d name hname
      rw [hnone name hname]
      rfl
    exact ⟨hkeep _ _ (by decide), hkeep _ _ (by decide), hkeep _ _ (by decide),
      .inr ⟨hflag, rfl⟩, rfl, rfl, rfl, rfl, rfl⟩

end Effect

/-! ## The ledger -/

/-- Whether something put a flag up: an effect that was returned, or the goal was shifted. -/
def Raised (effects : List Effect) (begun : List ActiveMutation) (word : String) : Prop :=
  .flag word ∈ effects ∨ word = goalFlag ∧ ∃ a ∈ begun, a.mutation = .goalShift

theorem Raised.mono {effects effects' : List Effect} {begun begun' : List ActiveMutation}
    {word : String} (h : Raised effects begun word) (heffects : effects ⊆ effects')
    (hbegun : begun ⊆ begun') : Raised effects' begun' word := by
  rcases h with hflag | ⟨hword, a, ha, hgoal⟩
  · exact .inl (heffects hflag)
  · exact .inr ⟨hword, a, hbegun ha, hgoal⟩

namespace GameState

/-- Whether a flag is up. -/
def IsUp (s : GameState) (word : String) : Prop := member s.flags word = .ok (some (.bool true))

/-- The flags that are up are the given ones, and the value of every flag is true. -/
def FlagsAre (s : GameState) (up : String → Prop) : Prop :=
  ∃ fields, s.flags = .record fields ∧
    ∀ word value, Fields.get? fields word = some value ↔ value = .bool true ∧ up word

variable {s s' : GameState} {up : String → Prop}

theorem FlagsAre.isUp_iff (h : s.FlagsAre up) {word : String} : s.IsUp word ↔ up word := by
  obtain ⟨fields, hfields, hget⟩ := h
  unfold IsUp member
  rw [hfields]
  simp only [Except.ok.injEq, hget, true_and]

theorem FlagsAre.raise (h : s.FlagsAre up) {word : String} (hraise : Effect.raiseFlag s word = .ok s') :
    s'.FlagsAre fun w => up w ∨ w = word := by
  obtain ⟨fields, hfields, rfl⟩ := Effect.raiseFlag_eq_ok.mp hraise
  obtain ⟨fields', hfields', hget⟩ := h
  obtain rfl := Datum.record.inj (hfields.symm.trans hfields')
  refine ⟨_, rfl, fun w value => ?_⟩
  rw [Fields.get?_set]
  by_cases hw : word = w
  · rw [if_pos hw, Option.some.injEq, eq_comm]
    exact ⟨fun hv => ⟨hv, .inr hw.symm⟩, fun hv => hv.1⟩
  · rw [if_neg hw, hget]
    exact and_congr_right fun _ => ⟨Or.inl, fun h => h.resolve_right (Ne.symm hw)⟩

theorem FlagsAre.congr {up' : String → Prop} (h : s.FlagsAre up) (hflags : s'.flags = s.flags)
    (hup : ∀ w, up' w ↔ up w) : s'.FlagsAre up' := by
  obtain ⟨fields, hfields, hget⟩ := h
  exact ⟨fields, hflags.trans hfields, fun w value => (hget w value).trans (by rw [hup])⟩

end GameState

/-- The ledger of a session of a game: the state after some movements of the clock, some
effects that were returned, and some mutations that began with the state in view. -/
structure Ledger (g : Game) (deltas : List Number) (effects : List Effect)
    (begun : List ActiveMutation) (s : GameState) : Prop where
  score : Datum.plusAll (.int 0) (Effect.amounts "score" effects) = .ok s.score
  health : Datum.plusAll (.int 3) (Effect.amounts "health" effects) = .ok s.health
  level : Datum.plusAll (.int 1) (Effect.amounts "level" effects) = .ok s.level
  elapsed : Datum.plusAll (.int 0) deltas = .ok s.elapsed
  combo : s.combo = .int 0
  entities : s.entities = .list []
  abilities : s.abilities = .list (g.verbs.map Vocabulary.datum)
  extra : s.extra = .record []
  flags : s.FlagsAre (Raised effects begun)

namespace Ledger

variable {g : Game} {deltas : List Number} {effects : List Effect} {begun : List ActiveMutation}
  {s s' : GameState}

theorem initial (g : Game) : Ledger g [] [] [] (Session.initialState g) where
  score := rfl
  health := rfl
  level := rfl
  elapsed := rfl
  combo := rfl
  entities := rfl
  abilities := rfl
  extra := rfl
  flags := by
    refine ⟨[], rfl, fun word value => ⟨fun h => ?_, fun h => ?_⟩⟩
    · cases h
    · rcases h.2 with hmem | ⟨-, a, hmem, -⟩
      · exact absurd hmem List.not_mem_nil
      · exact absurd hmem List.not_mem_nil

/-- An effect enters its amount and its flag. -/
theorem apply (h : Ledger g deltas effects begun s) {e : Effect} (happly : e.apply s = .ok s') :
    Ledger g deltas (effects ++ [e]) begun s' := by
  have hs := Effect.apply_spec happly
  have hsum : ∀ {name : String} {d d' d'' : Datum}, d.plusAll (Effect.amounts name effects) = .ok d' →
      d'.plusAll (e.amountOn name).toList = .ok d'' →
      d.plusAll (Effect.amounts name (effects ++ [e])) = .ok d'' := by
    intro name d d' d'' hbefore he
    rw [Effect.amounts_concat]
    exact Datum.plusAll_append hbefore he
  refine ⟨hsum h.score hs.score, hsum h.health hs.health, hsum h.level hs.level,
    h.elapsed.trans (congrArg _ hs.elapsed.symm), hs.combo.trans h.combo,
    hs.entities.trans h.entities, hs.abilities.trans h.abilities, hs.extra.trans h.extra, ?_⟩
  have hmem : ∀ w, Raised (effects ++ [e]) begun w ↔ Raised effects begun w ∨ .flag w = e := by
    intro w
    unfold Raised
    rw [List.mem_append, List.mem_singleton]
    exact or_right_comm
  rcases hs.flags with ⟨word, rfl, hraise⟩ | ⟨hnot, hflags⟩
  · refine (h.flags.raise hraise).congr rfl fun w => ?_
    rw [hmem, Effect.flag.injEq]
  · refine h.flags.congr hflags fun w => ?_
    rw [hmem]
    exact or_iff_left (Ne.symm (hnot w))

theorem applyAll (h : Ledger g deltas effects begun s) {more : List Effect}
    (happly : Effect.applyAll more s = .ok s') : Ledger g deltas (effects ++ more) begun s' := by
  induction more generalizing effects s with
  | nil =>
    obtain rfl := Except.ok.inj happly
    rw [List.append_nil]
    exact h
  | cons e more ih =>
    unfold Effect.applyAll at happly
    rw [List.foldlM_cons] at happly
    obtain ⟨t, ht, happly⟩ := bind_eq_ok.mp happly
    rw [List.append_cons]
    exact ih (h.apply ht) happly

theorem advance (h : Ledger g deltas effects begun s) {delta : Datum}
    (hadvance : s.advance delta = .ok s') :
    Ledger g (deltas ++ delta.positive?.toList) effects begun s' := by
  obtain ⟨hsum, hs'⟩ := GameState.advance_spec hadvance
  rw [hs']
  exact { h with elapsed := Datum.plusAll_append h.elapsed hsum }

/-- A mutation that began is entered: a shifted goal has its flag up, and the others have
left the state alone. -/
theorem begin (h : Ledger g deltas effects begun s) {a : ActiveMutation}
    (hgoal : a.mutation = .goalShift → Effect.raiseFlag s goalFlag = .ok s')
    (hother : a.mutation ≠ .goalShift → s' = s) : Ledger g deltas effects (begun ++ [a]) s' := by
  have hmem : ∀ w, Raised effects (begun ++ [a]) w ↔
      Raised effects begun w ∨ w = goalFlag ∧ a.mutation = .goalShift := by
    intro w
    unfold Raised
    simp only [List.mem_append, List.mem_singleton, or_and_right, exists_or, exists_eq_left,
      and_or_left, or_assoc]
  by_cases ha : a.mutation = .goalShift
  · have hraise := hgoal ha
    have hflags := h.flags.raise hraise
    obtain ⟨fields, -, rfl⟩ := Effect.raiseFlag_eq_ok.mp hraise
    refine { h with flags := hflags.congr rfl fun w => ?_ }
    rw [hmem]
    exact or_congr_right (and_iff_left ha)
  · obtain rfl := hother ha
    refine { h with flags := h.flags.congr rfl fun w => ?_ }
    rw [hmem]
    exact or_iff_left fun hw => ha hw.2

end Ledger

end SeededPlay

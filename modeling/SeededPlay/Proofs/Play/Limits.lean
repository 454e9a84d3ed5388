/-
# `SeededPlay.Proofs.Play.Limits` — how far rules can be run

In play, the numbers of a state are numbers, its flags a record, and nothing else is named
(`GameState.Counted`); effects keep it so.  In such a state a condition is decided and an
effect applied, with two exceptions.  A comparison sees its number as a double, and an
integer may be beyond every double (`Condition.Overflows`).  An amount is added to a number,
and the two may have no sum (`Effect.Overflows`).  So rules run through unless one of them
overflows when it is its turn (`Engine.Overflows`).

All this is said in one form: a result is `Limited` by a condition if it is a failure,
for want of range, exactly under that condition.

## Failing under a condition

`Limited` composes: one attempt after another fails where the first does, or where the second
does after it (`Limited.bind`), and what is sure to succeed adds no failures
(`Limited.followed`).  Adding to a number gives a number, and a number that is lost, infinite
or nan, stays so (`Datum.number_of_plusAll`); hence what an effect leaves behind is a state in
play, and a score that is lost stays so (`GameState.Counted.apply`).  The same goes for what
rules leave behind, failed or not (`keeps_counted_run`), since a run that overflows has
stopped between two effects.
-/
import SeededPlay.Proofs.Number.Range
import SeededPlay.Proofs.Play.Ledger

namespace SeededPlay

open Attempt (reached Keeps)

/-! ## Failing for want of range -/

/-- A number is out of the range it is needed in, or is nan where an integer is wanted. -/
def Fault.IsRange : Fault → Prop
  | .outOfRange => True
  | .nanToInteger => True
  | _ => False

/-- A failure exactly under a condition, and then for want of range. -/
inductive Limited {α : Type} (p : Prop) : Except Fault α → Prop
  | done (a : α) : ¬p → Limited p (.ok a)
  | stopped {f : Fault} : p → f.IsRange → Limited p (.error f)

namespace Attempt

variable {σ τ α β : Type}

/-- What an attempt came to, without what it reached. -/
def outcome : EStateM.Result Fault σ α → Except Fault α
  | .ok a _ => .ok a
  | .error f _ => .error f

theorem outcome_within (part : τ → σ) (put : τ → σ → τ) (x : Attempt σ α) (t : τ) :
    outcome (x.within part put t) = outcome (x (part t)) := by
  rw [within_apply]
  cases x (part t) <;> rfl

theorem outcome_eq_ok {r : EStateM.Result Fault σ α} {a : α} :
    outcome r = .ok a ↔ ∃ s, r = .ok a s := by
  cases r with
  | ok b s => exact ⟨fun h => ⟨s, congrArg (EStateM.Result.ok · s) (Except.ok.inj h)⟩,
      fun ⟨t, h⟩ => congrArg Except.ok (EStateM.Result.ok.inj h).1⟩
  | error f s => exact ⟨nofun, nofun⟩

end Attempt

namespace Limited

open Attempt (outcome)

variable {σ α β : Type} {p q : Prop} {r : Except Fault α}

theorem iff_ok (h : Limited p r) : (∃ a, r = .ok a) ↔ ¬p := by
  cases h with
  | done a hp => exact iff_of_true ⟨a, rfl⟩ hp
  | stopped hp hf => exact iff_of_false nofun (not_not.mpr hp)

theorem isRange (h : Limited p r) {f : Fault} (hf : r = .error f) : f.IsRange := by
  cases h with
  | done a hp => cases hf
  | stopped hp hrange =>
    obtain rfl := Except.error.inj hf
    exact hrange

theorem congr (h : Limited p r) (hpq : p ↔ q) : Limited q r := propext hpq ▸ h

theorem bind {x : Attempt σ α} {f : α → Attempt σ β} {s : σ} {q : α → σ → Prop}
    (hx : Limited p (outcome (x s)))
    (hf : ∀ a t, x s = .ok a t → Limited (q a t) (outcome (f a t))) :
    Limited (p ∨ ∃ a t, x s = .ok a t ∧ q a t) (outcome ((x >>= f) s)) := by
  rw [Attempt.bind_apply]
  cases hr : x s with
  | error e t =>
    rw [hr] at hx
    cases hx with
    | stopped hp hrange => exact .stopped (.inl hp) hrange
  | ok a t =>
    rw [hr] at hx
    cases hx with
    | done _ hp =>
      refine (hf a t hr).congr ⟨fun hq => .inr ⟨a, t, rfl, hq⟩, ?_⟩
      rintro (h | ⟨b, u, heq, hq⟩)
      · exact absurd h hp
      · obtain ⟨rfl, rfl⟩ := EStateM.Result.ok.inj heq
        exact hq

theorem followed {x : Attempt σ α} {f : α → Attempt σ β} {s : σ} (hx : Limited p (outcome (x s)))
    (hf : ∀ a t, x s = .ok a t → ∃ b u, f a t = .ok b u) :
    Limited p (outcome ((x >>= f) s)) := by
  refine (hx.bind (q := fun _ _ => False) fun a t ha => ?_).congr ⟨fun h => ?_, .inl⟩
  · obtain ⟨b, u, hb⟩ := hf a t ha
    rw [hb]
    exact .done b id
  · refine h.resolve_right ?_
    rintro ⟨_, _, -, h⟩
    exact h

end Limited

/-! ## States in play -/

/-- A state as it is in play. -/
structure GameState.Counted (st : GameState) : Prop where
  score : ∃ n : Number, st.score = .number n ∧ n.Valid
  health : ∃ n, st.health = .number n
  level : ∃ n, st.level = .number n
  combo : ∃ n, st.combo = .number n
  elapsed : ∃ t : Int, st.elapsed = .int t
  flags : ∃ fields, st.flags = .record fields
  extra : st.extra = .record []

theorem GameState.Counted.typed {st : GameState} (h : st.Counted) : st.Typed := by
  obtain ⟨t, ht⟩ := h.elapsed
  exact ⟨.inr ⟨.int t, ht ▸ rfl⟩, h.flags⟩

theorem GameState.Counted.raise {st st' : GameState} {word : String} (h : st.Counted)
    (hraise : Effect.raiseFlag st word = .ok st') : st'.Counted := by
  obtain ⟨fields, -, rfl⟩ := Effect.raiseFlag_eq_ok.mp hraise
  exact ⟨h.score, h.health, h.level, h.combo, h.elapsed, ⟨_, rfl⟩, h.extra⟩

/-! ## Conditions -/

/-- The condition compares a number that is beyond every double. -/
def Condition.Overflows (c : Condition) (st : GameState) : Prop :=
  ∃ field op target text n, c = .compare field op target text ∧
    st.valueOf field = .ok (some (.number n)) ∧ n.Beyond

theorem GameState.Counted.valueOf {st : GameState} (h : st.Counted) (name : String) :
    st.valueOf name = .ok none ∨ ∃ n, st.valueOf name = .ok (some (.number n)) := by
  obtain ⟨score, hscore, -⟩ := h.score
  obtain ⟨health, hhealth⟩ := h.health
  obtain ⟨level, hlevel⟩ := h.level
  obtain ⟨combo, hcombo⟩ := h.combo
  obtain ⟨t, helapsed⟩ := h.elapsed
  unfold GameState.valueOf
  split
  · exact .inr ⟨score, by rw [hscore]⟩
  · exact .inr ⟨health, by rw [hhealth]⟩
  · exact .inr ⟨combo, by rw [hcombo]⟩
  · exact .inr ⟨level, by rw [hlevel]⟩
  · exact .inr ⟨.int t, by rw [helapsed]; rfl⟩
  · rw [h.extra]
    exact .inl rfl

theorem Condition.measured_number (n : Number) : measured (some (.number n)) =
    match n.toReal? with
      | some x => .ok x
      | none => .error .outOfRange := by
  unfold measured Datum.toReal
  simp only
  cases n.toReal? <;> rfl

/-- A condition is decided, unless it compares a number beyond every double. -/
theorem Condition.limited_holds (c : Condition) {st : GameState} (h : st.Counted) :
    Limited (c.Overflows st) (c.holds st) := by
  have hother : (∀ field op target text, c ≠ .compare field op target text) →
      ¬c.Overflows st := by
    rintro hne ⟨field, op, target, text, n, hc, -⟩
    exact hne field op target text hc
  cases c with
  | always => exact .done true (hother nofun)
  | unknown text => exact .done true (hother nofun)
  | has name => exact .done _ (hother nofun)
  | flag name =>
    obtain ⟨fields, hfields⟩ := h.flags
    unfold holds
    rw [hfields]
    exact .done _ (hother nofun)
  | compare field op target text =>
    have hiff : (compare field op target text).Overflows st ↔
        ∃ n : Number, st.valueOf field = .ok (some (.number n)) ∧ n.Beyond := by
      constructor
      · rintro ⟨_, _, _, _, n, heq, hvalue, hbeyond⟩
        cases heq
        exact ⟨n, hvalue, hbeyond⟩
      · rintro ⟨n, hvalue, hbeyond⟩
        exact ⟨field, op, target, text, n, rfl, hvalue, hbeyond⟩
    refine Limited.congr ?_ hiff.symm
    show Limited _ (st.valueOf field >>= fun d => measured d >>= fun x =>
      pure (op.compare (.real x) target))
    rcases h.valueOf field with hvalue | ⟨n, hvalue⟩
    · rw [hvalue]
      refine .done _ ?_
      rintro ⟨n, hn, -⟩
      cases hn
    · have hsame : (∃ m : Number, st.valueOf field = .ok (some (.number m)) ∧ m.Beyond) ↔
          n.toReal? = none := by
        rw [Number.toReal?_eq_none_iff, hvalue]
        constructor
        · rintro ⟨m, hm, hbeyond⟩
          cases hm
          exact hbeyond
        · exact fun hbeyond => ⟨n, rfl, hbeyond⟩
      refine Limited.congr ?_ hsame.symm
      rw [hvalue]
      show Limited _ (measured (some (.number n)) >>= _)
      rw [measured_number]
      cases n.toReal? with
      | none => exact .stopped rfl trivial
      | some x => exact .done _ nofun

/-! ## Effects -/

/-- The number of a state that effects about a name add to. -/
def GameState.total? (st : GameState) : String → Option Datum
  | "score" => some st.score
  | "health" => some st.health
  | "level" => some st.level
  | _ => none

/-- The effect adds its amount to a number, and the two have no sum. -/
def Effect.Overflows (e : Effect) (st : GameState) : Prop :=
  ∃ name sign amount m, e = .arithmetic name sign amount ∧
    st.total? name = some (.number m) ∧ m.Apart (sign.apply amount)

theorem Datum.plus_number (m n : Number) : (Datum.number m).plus n =
    match m.add? n with
      | some sum => .ok (.number sum)
      | none => .error .outOfRange := rfl

/-- An effect is applied, unless its amount has no sum with the number that it adds to. -/
theorem Effect.limited_apply (e : Effect) {st : GameState} (h : st.Counted) :
    Limited (e.Overflows st) (e.apply st) := by
  have hsum : ∀ {name sign amount d} (put : Datum → GameState), st.total? name = some d →
      (∃ m, d = .number m) → Limited ((arithmetic name sign amount).Overflows st)
        ((d.plus (sign.apply amount)).map put) := by
    rintro name sign amount d put htotal ⟨m, rfl⟩
    have hiff : (arithmetic name sign amount).Overflows st ↔
        m.add? (sign.apply amount) = none := by
      rw [Number.add?_eq_none_iff]
      constructor
      · rintro ⟨_, _, _, m', heq, htotal', hapart⟩
        cases heq
        obtain rfl := Datum.number.inj (Option.some.inj (htotal.symm.trans htotal'))
        exact hapart
      · exact fun hapart => ⟨name, sign, amount, m, rfl, htotal, hapart⟩
    refine Limited.congr ?_ hiff.symm
    rw [Datum.plus_number]
    cases m.add? (sign.apply amount) with
    | none => exact .stopped rfl trivial
    | some sum => exact .done _ nofun
  unfold apply
  split
  · obtain ⟨m, hm, -⟩ := h.score
    exact hsum (fun d => { st with score := d }) rfl ⟨m, hm⟩
  · exact hsum (fun d => { st with health := d }) rfl h.health
  · exact hsum (fun d => { st with level := d }) rfl h.level
  · obtain ⟨fields, hfields⟩ := h.flags
    unfold raiseFlag
    rw [hfields]
    refine .done _ ?_
    rintro ⟨_, _, _, _, heq, -⟩
    cases heq
  · rename_i hscore hhealth hlevel hflag
    refine .done _ ?_
    rintro ⟨name, sign, amount, m, rfl, htotal, -⟩
    unfold GameState.total? at htotal
    split at htotal
    · exact hscore _ _ rfl
    · exact hhealth _ _ rfl
    · exact hlevel _ _ rfl
    · cases htotal

theorem Datum.number_of_plusAll {m : Number} {amounts : List Number} {d : Datum}
    (h : (Datum.number m).plusAll amounts = .ok d) :
    ∃ n, d = .number n ∧ (m.Valid → n.Valid) ∧ (m.IsLost → n.IsLost) := by
  induction amounts generalizing m with
  | nil =>
    obtain rfl := Except.ok.inj h
    exact ⟨m, rfl, id, id⟩
  | cons amount amounts ih =>
    unfold plusAll at h
    rw [List.foldlM_cons] at h
    obtain ⟨d', hplus, h⟩ := bind_eq_ok.mp h
    rw [plus_number] at hplus
    split at hplus
    · rename_i sum hsum
      obtain rfl := Except.ok.inj hplus
      obtain ⟨n, rfl, hvalid, hlost⟩ := ih h
      exact ⟨n, rfl, fun _ => hvalid (Number.valid_add hsum), fun hm => hlost (hm.add hsum)⟩
    · cases hplus

/-- A score that is infinite or nan. -/
def GameState.Lost (st : GameState) : Prop := ∃ n : Number, st.score = .number n ∧ n.IsLost

theorem GameState.Counted.apply {e : Effect} {st st' : GameState} (h : st.Counted)
    (happly : e.apply st = .ok st') : st'.Counted ∧ (st.Lost → st'.Lost) := by
  have hs := Effect.apply_spec happly
  obtain ⟨score, hscore, hvalid⟩ := h.score
  obtain ⟨health, hhealth⟩ := h.health
  obtain ⟨level, hlevel⟩ := h.level
  obtain ⟨score', hscore', hvalid', hlost⟩ := Datum.number_of_plusAll (hscore ▸ hs.score)
  obtain ⟨health', hhealth', -⟩ := Datum.number_of_plusAll (hhealth ▸ hs.health)
  obtain ⟨level', hlevel', -⟩ := Datum.number_of_plusAll (hlevel ▸ hs.level)
  refine ⟨⟨⟨score', hscore', hvalid' hvalid⟩, ⟨health', hhealth'⟩, ⟨level', hlevel'⟩, ?_, ?_, ?_,
    ?_⟩, ?_⟩
  · exact hs.combo ▸ h.combo
  · exact hs.elapsed ▸ h.elapsed
  · rcases hs.flags with ⟨word, -, hraise⟩ | ⟨-, heq⟩
    · obtain ⟨fields, -, rfl⟩ := Effect.raiseFlag_eq_ok.mp hraise
      exact ⟨_, rfl⟩
    · exact heq ▸ h.flags
  · exact hs.extra.trans h.extra
  · rintro ⟨n, hn, hn'⟩
    obtain rfl := Datum.number.inj (hscore.symm.trans hn)
    exact ⟨score', hscore', hlost hn'⟩

/-! ## Rules -/

/-- When it is the turn of the rule, its condition overflows, or it holds and the effect
does. -/
def CompiledRule.Overflows (c : CompiledRule) (st : GameState) : Prop :=
  c.condition.Overflows st ∨ c.condition.holds st = .ok true ∧ c.effect.Overflows st

theorem CompiledRule.limited_attempt (c : CompiledRule) {st : GameState} (h : st.Counted) :
    Limited (c.Overflows st) (Attempt.outcome (c.attempt st)) := by
  have hcondition := c.condition.limited_holds h
  have heffect := c.effect.limited_apply h
  rw [attempt_apply]
  unfold Overflows
  cases hholds : c.condition.holds st with
  | error f =>
    rw [hholds] at hcondition
    cases hcondition with
    | stopped hover hrange => exact .stopped (.inl hover) hrange
  | ok b =>
    rw [hholds] at hcondition
    cases hcondition with
    | done _ hnot =>
      cases b with
      | false => exact .done none fun hover => hover.elim hnot fun hover => nomatch hover.1
      | true =>
        cases happly : c.effect.apply st with
        | error f =>
          rw [happly] at heffect
          cases heffect with
          | stopped hover hrange => exact .stopped (.inr ⟨rfl, hover⟩) hrange
        | ok st' =>
          rw [happly] at heffect
          cases heffect with
          | done _ hfits => exact .done _ fun hover => hover.elim hnot fun hover => hfits hover.2

namespace Engine

/-- Of rules that are run in order, one overflows when it is its turn. -/
inductive Overflows : List CompiledRule → GameState → Prop
  | here {c : CompiledRule} {rules : List CompiledRule} {st : GameState} :
      c.Overflows st → Overflows (c :: rules) st
  | later {c : CompiledRule} {rules : List CompiledRule} {st st' : GameState}
      {effect : Option Effect} :
      c.attempt st = .ok effect st' → Overflows rules st' → Overflows (c :: rules) st

theorem overflows_cons {c : CompiledRule} {rules : List CompiledRule} {st : GameState} :
    Overflows (c :: rules) st ↔ c.Overflows st ∨
      ∃ effect st', c.attempt st = .ok effect st' ∧ Overflows rules st' := by
  constructor
  · intro h
    cases h with
    | here h => exact .inl h
    | later hattempt h => exact .inr ⟨_, _, hattempt, h⟩
  · rintro (h | ⟨effect, st', hattempt, h⟩)
    · exact .here h
    · exact .later hattempt h

theorem keeps_counted_run (lost : Prop) (rules : List CompiledRule) :
    Keeps (fun st : GameState => st.Counted ∧ (lost → st.Lost)) (run rules) :=
  keeps_run (fun happly ⟨hcounted, hlost⟩ =>
    have h := hcounted.apply happly
    ⟨h.1, fun hl => h.2 (hlost hl)⟩) rules

/-- Rules run through, unless one of them overflows when it is its turn. -/
theorem limited_run {rules : List CompiledRule} {st : GameState} (h : st.Counted) :
    Limited (Overflows rules st) (Attempt.outcome (run rules st)) := by
  induction rules generalizing st with
  | nil => exact .done [] nofun
  | cons c rules ih =>
    refine (Limited.bind (q := fun _ st' => Overflows rules st') (c.limited_attempt h)
      fun effect st' hattempt => ?_).congr overflows_cons.symm
    have hkeeps : Keeps GameState.Counted c.attempt :=
      c.keeps_attempt fun happly hcounted => (hcounted.apply happly).1
    exact (ih (hkeeps.of_ok hattempt h)).followed fun rest st'' _ => ⟨_, _, rfl⟩

end Engine

end SeededPlay

/-
# `SeededPlay.Proofs.Chaos.Schedule` — what the schedule depends on

Which mutations are active, since when and until when, is decided by the level, the seed
and the times and scores that the scheduler is shown.  It is not decided by the rules in
force, by the parameters of the world, or by anything else in a state, although mutations
rewrite all of these.

The trace of a run is what its caller is told and can look at after each call.  Steady twins
that receive calls of one score and one clock (`Call.Alike`) reply the same and stay twins
(`same_reply`), so by induction their traces are equal (`trace_eq`).

The proof is the twin argument applied call by call.  States that are shown to both sides
agree in score and clock only (`same_present`); from there each operation goes the same way
in both schedulers, what is told of it is the same (`agree_told`), and what can be seen of
twins afterwards is the same (`sight_eq`).
-/
import SeededPlay.Proofs.Chaos.Twins

namespace SeededPlay

open Attempt (reached Keeps Same Agree)

namespace Scheduler

open Invariant (During)

variable {shown : Bool}

/-! ## Runs -/

/-- What a caller is told. -/
inductive Reply where
  | entry (a? : Option Datum)
  | entries (as : List Datum)
  | names (ids : List String)
  | found (b : Bool)
  | done

/-- What a call does, with what the caller is told. -/
def Call.reply : Call → Attempt Scheduler Reply
  | .activate state => do
    present state
    return .entry ((← Scheduler.activate state.isSome).map ActiveMutation.dump)
  | .milestone state => do
    present state
    return .entry ((← Scheduler.activate state.isSome).map ActiveMutation.dump)
  | .observe state => do
    present state
    return .entries ((← Scheduler.observe state.isSome).map ActiveMutation.dump)
  | .tick elapsed state => do
    present state
    return .entry ((← Scheduler.tick elapsed state.isSome).map ActiveMutation.dump)
  | .expire elapsed => do return .names ((← Scheduler.expire elapsed).map Mutation.id)
  | .revert id => do return .found (← revertNamed id)
  | .revertAll => do
    Scheduler.revertAll
    return .done
  | .setLevel level => do
    Scheduler.setLevel (.ofDatum level)
    return .done
  | .setWeights weights => do
    Scheduler.setWeights weights
    return .done

theorem Call.run_eq (c : Call) : c.run = discard c.reply := by
  cases c <;>
    simp only [run, reply, Attempt.discard_eq_bind, bind_assoc, pure_bind, bind_pure_unit]

/-- What can be seen after a call. -/
structure Sight where
  reply : Except Fault Reply
  active : List Datum
  history : List Category
  activations : Nat

def Sight.ofResult : EStateM.Result Fault Scheduler Reply → Sight
  | .ok reply s => ⟨.ok reply, s.active.map ActiveMutation.dump, s.history, s.activations⟩
  | .error f s => ⟨.error f, s.active.map ActiveMutation.dump, s.history, s.activations⟩

/-- What can be seen along a run. -/
def trace : List Call → Scheduler → List Sight
  | [], _ => []
  | c :: calls, s => .ofResult (c.reply s) :: trace calls (reached (c.run s))

/-- Two states with one score and one clock. -/
def View (st st' : GameState) : Prop := st.score = st'.score ∧ st.elapsed = st'.elapsed

/-- Two calls that differ in the states that are shown, but not in their scores and clocks. -/
inductive Call.Alike : Call → Call → Prop
  | activate {st st' : Option GameState} : Option.Rel View st st' → Alike (.activate st) (.activate st')
  | milestone {st st' : Option GameState} : Option.Rel View st st' →
      Alike (.milestone st) (.milestone st')
  | observe {st st' : Option GameState} : Option.Rel View st st' → Alike (.observe st) (.observe st')
  | tick (elapsed : Datum) {st st' : Option GameState} : Option.Rel View st st' →
      Alike (.tick elapsed st) (.tick elapsed st')
  | expire (elapsed : Datum) : Alike (.expire elapsed) (.expire elapsed)
  | revert (id : String) : Alike (.revert id) (.revert id)
  | revertAll : Alike .revertAll .revertAll
  | setLevel (level : Datum) : Alike (.setLevel level) (.setLevel level)
  | setWeights (weights : Fields Datum) : Alike (.setWeights weights) (.setWeights weights)

theorem SteadyTwins.quiet {s t : Scheduler} (h : SteadyTwins shown s t) : SteadyTwins false s t :=
  ⟨During.quiet h.1.1, During.quiet h.2.1.1, h.2.2.quiet⟩

theorem map_dump_of_outline {as bs : List ActiveMutation} (h : EntriesTwins as bs) :
    as.map ActiveMutation.dump = bs.map ActiveMutation.dump := by
  have hdump : ∀ as : List ActiveMutation, as.map ActiveMutation.dump =
      (as.map ActiveMutation.outline).map ActiveMutation.dump := by
    intro as
    rw [List.map_map]
    rfl
  rw [hdump as, hdump bs, show as.map _ = bs.map _ from h]

theorem optionMap_dump_of_outline {a? b? : Option ActiveMutation} (h : EntryTwins a? b?) :
    a?.map ActiveMutation.dump = b?.map ActiveMutation.dump := by
  have hdump : ∀ a? : Option ActiveMutation, a?.map ActiveMutation.dump =
      (a?.map ActiveMutation.outline).map ActiveMutation.dump := by
    intro a?
    rw [Option.map_map]
    rfl
  rw [hdump a?, hdump b?, show a?.map _ = b?.map _ from h]

theorem same_present {st st' : Option GameState} (h : Option.Rel View st st')
    (hst : ∀ a ∈ st, Flagged a) (hst' : ∀ a ∈ st', Flagged a) {x : Bool → Attempt Scheduler Reply}
    (hx : ∀ shown, Agree (SteadyTwins shown) Eq (x shown) (x shown)) {s t : Scheduler}
    (htwins : SteadyTwins false s t) :
    Same (SteadyTwins false) Eq ((present st >>= fun _ => x st.isSome) s)
      ((present st' >>= fun _ => x st'.isSome) t) := by
  obtain ⟨⟨hs, -⟩, ⟨ht, -⟩, htwin⟩ := htwins
  have hduring : During Flagged Steady st.isSome (reached (present st s)) :=
    steady_invariant.present hst hs
  have hduring' : During Flagged Steady st'.isSome (reached (present st' t)) :=
    steady_invariant.present hst' ht
  have hsome : st'.isSome = st.isSome := by cases h <;> rfl
  rw [hsome] at hduring' ⊢
  have hview : st.isSome = true → (reached (present st s)).state.score =
      (reached (present st' t)).state.score ∧ (reached (present st s)).state.elapsed =
        (reached (present st' t)).state.elapsed := by
    intro hshown
    cases h with
    | none => cases hshown
    | some hview => exact hview
  have hsame := hx _ _ _ ⟨hduring, hduring', htwin.outline, hview⟩
  exact hsame.imp (fun hr => hr.quiet) fun _ _ he => he

theorem agree_entry {x : Attempt Scheduler (Option ActiveMutation)}
    (h : Agree (SteadyTwins shown) EntryTwins x x) :
    Agree (SteadyTwins shown) Eq (do return Reply.entry ((← x).map ActiveMutation.dump))
      (do return Reply.entry ((← x).map ActiveMutation.dump)) :=
  h.bind fun _ _ hab => Agree.pure (congrArg Reply.entry (optionMap_dump_of_outline hab))

theorem agree_told {α : Type} {x : Attempt Scheduler α} (h : Agree (SteadyTwins shown) Eq x x)
    (f : α → Reply) : Agree (SteadyTwins shown) Eq (do return f (← x)) (do return f (← x)) :=
  h.bind fun _ _ hab => Agree.pure (congrArg f hab)

theorem same_reply {c c' : Call} (h : c.Alike c') (hc : c.Keeps (fun _ => True) Flagged)
    (hc' : c'.Keeps (fun _ => True) Flagged) {s t : Scheduler} (htwins : SteadyTwins false s t) :
    Same (SteadyTwins false) Eq (c.reply s) (c'.reply t) := by
  cases h with
  | activate hst => exact same_present hst hc hc' (fun _ => agree_entry agree_activate) htwins
  | milestone hst => exact same_present hst hc hc' (fun _ => agree_entry agree_activate) htwins
  | observe hst =>
    refine same_present hst hc hc' (fun _ => agree_observe.bind fun _ _ hab => ?_) htwins
    exact Agree.pure (congrArg Reply.entries (map_dump_of_outline hab))
  | tick elapsed hst =>
    exact same_present hst hc.2 hc'.2 (fun _ => agree_entry (agree_tick elapsed)) htwins
  | expire elapsed =>
    have hkeep := steady_invariant.keeps_expire false elapsed
    exact agree_told (agree_steady hkeep (agree_expire elapsed)) _ s t htwins
  | revert id =>
    have hkeep := keeps_revertNamed (steady_invariant.keeps_revert false) id
    exact agree_told (agree_steady hkeep (agree_revertNamed id)) _ s t htwins
  | revertAll =>
    have hkeep : Keeps (During Flagged Steady false) Scheduler.revertAll :=
      fun _ hs => During.quiet (steady_invariant.revertAll_reached hs.1)
    exact agree_told (agree_steady hkeep agree_revertAll) (fun _ => .done) s t htwins
  | setLevel level =>
    have hkeep : Keeps (During Flagged Steady false) (Scheduler.setLevel (.ofDatum level)) :=
      fun _ hs => During.quiet (steady_invariant.setLevel hs.1 _)
    exact agree_told (agree_steady hkeep (agree_setLevel _)) (fun _ => .done) s t htwins
  | setWeights weights =>
    have hset : Agree (SteadyTwins false) Eq (Scheduler.setWeights weights)
        (Scheduler.setWeights weights) := by
      refine agree_note ?_ (fun _ => rfl) fun s t h => ?_
      · exact fun s => ⟨rfl, rfl, rfl, rfl, rfl, rfl, rfl, .inl rfl⟩
      · show ({ s.outline with weights } : Scheduler) = { t.outline with weights }
        rw [h.outline]
    exact agree_told hset (fun _ => .done) s t htwins

theorem sight_eq {r r' : EStateM.Result Fault Scheduler Reply}
    (h : Same (SteadyTwins false) Eq r r') : Sight.ofResult r = Sight.ofResult r' := by
  have hactive : ∀ {s t}, SteadyTwins false s t →
      s.active.map ActiveMutation.dump = t.active.map ActiveMutation.dump ∧
        s.history = t.history ∧ s.activations = t.activations := by
    rintro s t ⟨-, -, htwin⟩
    have hhistory : s.outline.history = t.outline.history :=
      congrArg Scheduler.history htwin.outline
    have hactivations : s.outline.activations = t.outline.activations :=
      congrArg Scheduler.activations htwin.outline
    exact ⟨map_dump_of_outline htwin.active, hhistory, hactivations⟩
  cases h with
  | ok hab hst =>
    obtain ⟨h₁, h₂, h₃⟩ := hactive hst
    rw [Sight.ofResult, Sight.ofResult, hab, h₁, h₂, h₃]
  | error f hst =>
    obtain ⟨h₁, h₂, h₃⟩ := hactive hst
    rw [Sight.ofResult, Sight.ofResult, h₁, h₂, h₃]

theorem Steady.start {rules : List Rule} {e : Engine} (he : Engine.ofRules false rules = .ok e)
    {base : Fields Datum} (h : base.Grounded) (level : ChaosLevel) (seed : Nat) (state : GameState) :
    (start level seed e base state).Steady := by
  obtain ⟨hstrict, -, hsound⟩ := Engine.ofRules_spec he
  exact ⟨Consistent.start hsound level seed base state, Grounded.start h level seed e state, hstrict⟩

/-- Two schedulers of one level and one seed, with whatever rules under permissive engines
and whatever parameters, as long as the gravity counts as a number, show the same along
any run: the replies of all calls, with the mutations they activate and their times, and
after each call what is active, the history and the count.  The states that are shown need
agree in their scores and clocks only. -/
theorem trace_eq {rules₁ rules₂ : List Rule} {e₁ e₂ : Engine}
    (he₁ : Engine.ofRules false rules₁ = .ok e₁) (he₂ : Engine.ofRules false rules₂ = .ok e₂)
    (level : ChaosLevel) (seed : Nat) {base₁ base₂ : Fields Datum}
    (hbase₁ : ∀ d ∈ base₁.get? "gravity_y", d.Numeric)
    (hbase₂ : ∀ d ∈ base₂.get? "gravity_y", d.Numeric) (state₁ state₂ : GameState)
    {calls₁ calls₂ : List Call} (hcalls : List.Forall₂ Call.Alike calls₁ calls₂)
    (hflags₁ : ∀ c ∈ calls₁, c.Keeps (fun _ => True) fun st => ∃ fields, st.flags = .record fields)
    (hflags₂ : ∀ c ∈ calls₂, c.Keeps (fun _ => True) fun st => ∃ fields, st.flags = .record fields) :
    trace calls₁ (start level seed e₁ base₁ state₁) =
      trace calls₂ (start level seed e₂ base₂ state₂) := by
  have htwins : SteadyTwins false (start level seed e₁ base₁ state₁)
      (start level seed e₂ base₂ state₂) :=
    ⟨During.quiet (Steady.start he₁ hbase₁ level seed state₁),
      During.quiet (Steady.start he₂ hbase₂ level seed state₂), rfl, fun hf => Bool.noConfusion hf⟩
  generalize start level seed e₁ base₁ state₁ = s at htwins
  generalize start level seed e₂ base₂ state₂ = t at htwins
  induction hcalls generalizing s t with
  | nil => rfl
  | @cons c c' calls₁ calls₂ hc _ ih =>
    have hsame := same_reply hc (hflags₁ c List.mem_cons_self) (hflags₂ c' List.mem_cons_self) htwins
    rw [trace, trace, sight_eq hsame, c.run_eq, c'.run_eq, Attempt.reached_discard,
      Attempt.reached_discard]
    refine congrArg _ (ih (fun c hc => hflags₁ c (List.mem_cons_of_mem _ hc))
      (fun c hc => hflags₂ c (List.mem_cons_of_mem _ hc)) _ _ hsame.reached)

theorem trace_eq_worlds :
    let coin : Rule := .always "player_collect_coin" "add_score" "score+1"
    let e₁ : Engine := ⟨false, [⟨coin, .always, .arithmetic "score" .plus 1⟩]⟩
    let e₂ : Engine := ⟨false, []⟩
    let calls (health : Int) : List Call := [.activate none, .setLevel (.int 90),
      .observe (some { score := .int 120, health := .int health }),
      .tick (.int 20000) (some { health := .int health, elapsed := .int 20000 }),
      .revert "time_warp", .revertAll]
    Engine.ofRules false [coin] = .ok e₁ ∧ Engine.ofRules false [] = .ok e₂ ∧
      (∀ d ∈ Fields.get? [("gravity_y", .int 800)] "gravity_y", Datum.Numeric d) ∧
      List.Forall₂ Call.Alike (calls 3) (calls 1) ∧
      trace (calls 3) (start (.clamp 60) 7 e₁ [("gravity_y", .int 800)] {}) =
        trace (calls 1) (start (.clamp 60) 7 e₂ [] {}) := by
  intro coin e₁ e₂ calls
  have he₁ : Engine.ofRules false [coin] = .ok e₁ := Engine.ofRules_point false .plus _ _
  have he₂ : Engine.ofRules false [] = .ok e₂ := rfl
  have hgravity : ∀ d ∈ Fields.get? [("gravity_y", .int 800)] "gravity_y", Datum.Numeric d := by
    intro d hd
    obtain rfl : Datum.int 800 = d := Option.some.inj hd
    exact ⟨_, rfl⟩
  have hmissing : ∀ d ∈ Fields.get? ([] : Fields Datum) "gravity_y", d.Numeric := by
    intro d hd
    cases hd
  have hcalls : List.Forall₂ Call.Alike (calls 3) (calls 1) :=
    .cons (.activate .none) (.cons (.setLevel _) (.cons (.observe (.some ⟨rfl, rfl⟩))
      (.cons (.tick _ (.some ⟨rfl, rfl⟩)) (.cons (.revert _) (.cons .revertAll .nil)))))
  have hflags : ∀ health, ∀ c ∈ calls health,
      c.Keeps (fun _ => True) fun st => ∃ fields, st.flags = .record fields := by
    intro health c hc
    simp only [calls, List.mem_cons, List.not_mem_nil, or_false] at hc
    rcases hc with rfl | rfl | rfl | rfl | rfl | rfl
    · exact fun st hst => nomatch hst
    · trivial
    · exact fun st hst => Option.some.inj hst ▸ ⟨_, rfl⟩
    · exact ⟨trivial, fun st hst => Option.some.inj hst ▸ ⟨_, rfl⟩⟩
    · trivial
    · trivial
  exact ⟨he₁, he₂, hgravity, hcalls,
    trace_eq he₁ he₂ (.clamp 60) 7 hgravity hmissing {} {} hcalls (hflags 3) (hflags 1)⟩

end Scheduler

end SeededPlay

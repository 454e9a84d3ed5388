/-
# `SeededPlay.Proofs.Chaos.Consistency` — schedulers stay consistent

The invariant of the scheduler itself: what is active fits under the level, no
mutation is active twice and no two write the same parameter, and the nonces, the
count of activations and the history agree.  It holds after every run, whatever the
rules, the states, the times and the levels, and also when calls fail on the way
(`runAll_consistent`).

The hard step is a new level: the engine must first take back what is not permitted
any longer and then the oldest mutations until the rest fits, and for a moment nothing
fits.  That taking back cannot fail half way is what makes it a step at all.

## A new level

Among what is active, what the level does not refuse is what it permits
(`filter_not_refused`), and of that the newest stay, as many as there is room for
(`kept`).  So a new level can be specified in one equation (`setLevel_spec`): it never
fails, it keeps what it permits and has room for, and nothing else becomes different but
the scene and the weights.  Other invariants come through it without opening the loops
again.  A property that taking back keeps on intact schedulers, and that does not look at
the level, survives a new level (`keeps_intact_setLevel`); with the two steps this makes an
invariant of runs (`invariant_of_steps`).
-/
import SeededPlay.Proofs.Chaos.Calls

namespace SeededPlay

open Attempt (reached Keeps)

namespace Scheduler

/-! ## The two steps -/

theorem Consistent.start {e : Engine} (h : e.Sound) (level : ChaosLevel) (seed : Nat)
    (params : Fields Datum) (state : GameState) :
    (start level seed e params state).Consistent where
  intact :=
    { sound := h
      usable := fun _ ha => absurd ha List.not_mem_nil
      distinct := List.nodup_nil
      apart := List.Pairwise.nil
      ordered := List.Pairwise.nil
      below := fun _ ha => absurd ha List.not_mem_nil
      counted := rfl
      recorded := fun _ ha => absurd ha List.not_mem_nil }
  fits := ⟨Nat.zero_le _, fun _ hm => absurd hm List.not_mem_nil⟩

theorem Consistent.note {T : Datum → Prop} {s s' : Scheduler} (hn : Note T s s')
    (h : s.Consistent) : s'.Consistent := by
  obtain ⟨hi, hf⟩ := h
  have hmuts : s'.mutations = s.mutations :=
    congrArg (List.map ActiveMutation.mutation) hn.active
  have hcap : s'.cap = s.cap := congrArg (fun level => Tier.cap (ChaosLevel.tier level)) hn.level
  refine ⟨⟨?_, ?_, ?_, ?_, ?_, ?_, ?_, ?_⟩, ?_, ?_⟩
  · exact hn.rules ▸ hi.sound
  · exact hn.active ▸ hn.rules ▸ hi.usable
  · exact hmuts ▸ hi.distinct
  · exact hn.active ▸ hi.apart
  · exact hn.active ▸ hi.ordered
  · exact hn.active ▸ hn.activations ▸ hi.below
  · exact hn.activations ▸ hn.history ▸ hi.counted
  · exact hn.active ▸ hn.history ▸ hi.recorded
  · exact hn.active ▸ hcap ▸ hf.few
  · exact hmuts ▸ hn.level ▸ hf.permitted

theorem Fits.shrink {s : Scheduler} (h : s.Fits) {scene : Scene} {active : List ActiveMutation}
    (hsub : active.Sublist s.active) : Fits { s with scene, active } where
  few := Nat.le_trans hsub.length_le h.few
  permitted := fun m hm => h.permitted m ((hsub.map _).subset hm)

theorem Consistent.revert {s : Scheduler} (h : s.Consistent) (m : Mutation) :
    (reached (revert m s)).Consistent := by
  obtain ⟨b, scene, -, -, hrevert, hintact⟩ := revert_spec h.intact m
  rw [hrevert]
  exact ⟨hintact, h.fits.shrink List.filter_sublist⟩

theorem Consistent.begin {s : Scheduler} (h : s.Consistent) {m : Mutation} (hready : Ready m s)
    (shown : Bool) : (reached (begin m shown s)).Consistent := by
  rcases begin_cases h.intact hready shown with ⟨scene, expires, -, heq, hintact⟩ | ⟨scene, heq, hintact⟩
  · refine ⟨hintact, ?_⟩
    rw [heq]
    refine ⟨?_, fun n hn => ?_⟩
    · show (s.active ++ [_]).length ≤ s.cap
      rw [List.length_append, List.length_singleton]
      exact hready.room
    · have hn : n ∈ (s.active ++ [_]).map ActiveMutation.mutation := hn
      rw [List.map_append] at hn
      rcases List.mem_append.mp hn with hn | hn
      · exact h.fits.permitted n hn
      · rw [List.mem_singleton.mp hn]
        exact hready.permitted
  · refine ⟨hintact, ?_⟩
    rw [heq]
    exact h.fits.shrink (List.Sublist.refl _)

/-! ## A new level -/

theorem Intact.setLevel {s : Scheduler} (h : s.Intact) {level : ChaosLevel}
    {weights : Fields Datum} : Intact { s with level, weights } :=
  ⟨h.sound, h.usable, h.distinct, h.apart, h.ordered, h.below, h.counted, h.recorded⟩

/-- The active mutations that stay under a new level: what it permits, and of that the
newest that it has room for. -/
def kept (s : Scheduler) (level : ChaosLevel) : List ActiveMutation :=
  (s.active.filter (·.mutation ∈ level.eligible)).rtake level.tier.cap

theorem filter_not_refused (s : Scheduler) (level : ChaosLevel) :
    (s.active.filter (·.mutation ∉
      (s.active.filter fun a => !level.eligible.contains a.mutation).map (·.mutation))) =
      s.active.filter (·.mutation ∈ level.eligible) := by
  refine List.filter_congr fun a ha => ?_
  simp only [decide_eq_decide, List.mem_map, List.mem_filter, not_exists, not_and]
  constructor
  · intro hnot
    by_contra hper
    refine hnot a ⟨ha, ?_⟩ rfl
    simpa using hper
  · rintro hper b ⟨-, hb⟩ heq
    rw [heq] at hb
    simp [hper] at hb

/-- A new level never fails.  It keeps what it permits and has room for; nothing else
becomes different but the scene and the weights. -/
theorem setLevel_spec {s : Scheduler} (h : s.Intact) (level : ChaosLevel) :
    ∃ scene : Scene, setLevel level s = .ok ⟨⟩ { s with
        scene, level, weights := weightsOf level, active := s.kept level } ∧
      Intact { s with scene, level, weights := weightsOf level, active := s.kept level } := by
  have hintact : Intact { s with level, weights := weightsOf level } := h.setLevel
  obtain ⟨scene, heach, hintact'⟩ := revertEach_spec hintact
    ((s.active.filter fun a => !level.eligible.contains a.mutation).map (·.mutation))
  simp only [filter_not_refused] at heach hintact'
  obtain ⟨scene', hold, hintact''⟩ := revertOldest_spec hintact'
    ((s.active.filter (·.mutation ∈ level.eligible)).length - level.tier.cap)
  refine ⟨scene', ?_, hintact''⟩
  unfold setLevel
  simp only [Attempt.bind_apply, Attempt.modify_apply, Attempt.get_apply, heach]
  exact hold

theorem fits_kept (s : Scheduler) (level : ChaosLevel) {scene : Scene} {weights : Fields Datum} :
    Fits { s with scene, level, weights, active := s.kept level } where
  few := by
    show ((s.active.filter (·.mutation ∈ level.eligible)).drop _).length ≤ level.tier.cap
    rw [List.length_drop]
    omega
  permitted := by
    intro m hm
    obtain ⟨a, ha, rfl⟩ := List.mem_map.mp hm
    simpa using (List.mem_filter.mp (List.mem_of_mem_drop ha)).2

theorem Consistent.setLevel {s : Scheduler} (h : s.Consistent) (level : ChaosLevel) :
    (reached (setLevel level s)).Consistent := by
  obtain ⟨scene, heq, hintact⟩ := setLevel_spec h.intact level
  rw [heq]
  exact ⟨hintact, fits_kept s level⟩

/-! ## Every run -/

theorem Consistent.setParams {s : Scheduler} (h : s.Consistent) (params : Fields Datum) :
    Consistent { s with scene := { s.scene with params } } :=
  ⟨h.intact.shrink h.intact.sound rfl (List.Sublist.refl s.active),
    h.fits.shrink (List.Sublist.refl s.active)⟩

theorem consistent_invariant :
    Invariant (fun _ => True) (fun _ => True) Consistent where
  consistent := fun h => h
  note := fun hn h => h.note hn
  revert := fun h m => h.revert m
  begin := fun h _ hready shown _ => h.begin hready shown
  beginState := fun _ _ _ _ => trivial
  setLevel := fun h level => h.setLevel level
  reset := fun h _ => h.setParams _

theorem mutations_revertAll {s : Scheduler} (h : s.Consistent) (calls : List Call) :
    (s.runAll (calls ++ [.revertAll])).mutations = [] := by
  have hs : (s.runAll calls).Consistent := consistent_invariant.runAll (fun c _ => c.keeps_true) h
  obtain ⟨scene, -, hall⟩ := revertAll_spec hs.intact
  rw [runAll_append]
  exact congrArg mutations hall

/-- A property that taking back keeps on intact schedulers, and that does not look at the
level, survives a new level. -/
theorem keeps_intact_setLevel {K : Scheduler → Prop}
    (hrevert : ∀ {s : Scheduler}, s.Intact → K s → ∀ m, K (reached (revert m s)))
    (hlevel : ∀ {s : Scheduler} (level : ChaosLevel), K s →
      K { s with level, weights := weightsOf level }) (level : ChaosLevel) :
    Keeps (fun s => s.Intact ∧ K s) (setLevel level) :=
  keeps_setLevel
    (fun m s h => ⟨keeps_intact_revert m s h.1, hrevert h.1 h.2 m⟩)
    fun _ h => ⟨h.1.setLevel, hlevel level h.2⟩

theorem invariant_of_steps {T : Datum → Prop} {G : GameState → Prop} {K : Scheduler → Prop}
    (hnote : ∀ {s s' : Scheduler}, Note T s s' → K s → K s')
    (hrevert : ∀ {s : Scheduler}, s.Intact → K s → ∀ m, K (reached (revert m s)))
    (hbegin : ∀ {s : Scheduler}, s.Intact → K s → ∀ {m}, Ready m s → ∀ {shown : Bool},
      (shown = true → G s.scene.state) → K (reached (begin m shown s)))
    (hstate : ∀ {s : Scheduler} (m : Mutation), G s.scene.state →
      G (reached (begin m true s)).scene.state)
    (hlevel : ∀ {s : Scheduler} (level : ChaosLevel), K s →
      K { s with level, weights := weightsOf level })
    (hreset : ∀ {s : Scheduler}, K s → s.active = [] →
      K { s with scene := { s.scene with params := s.base } }) :
    Invariant T G (fun s => s.Consistent ∧ K s) where
  consistent := fun h => h.1
  note := fun hn h => ⟨h.1.note hn, hnote hn h.2⟩
  revert := fun h m => ⟨h.1.revert m, hrevert h.1.intact h.2 m⟩
  begin := fun h _ hready shown hshown =>
    ⟨h.1.begin hready shown, hbegin h.1.intact h.2 hready hshown⟩
  beginState := fun _ m _ hg => hstate m hg
  setLevel := fun h level => ⟨h.1.setLevel level,
    (keeps_intact_setLevel hrevert hlevel level _ ⟨h.1.intact, h.2⟩).2⟩
  reset := fun h hactive => ⟨h.1.setParams _, hreset h.2 hactive⟩

theorem id_injective : Function.Injective Mutation.id :=
  fun _ _ h => Vocabulary.word_injective h

/-- After every run, from every start and however many of its calls failed, what is
active fits under the level, is listed once and writes parameters of its own, and the
nonces, the count of activations and the history agree. -/
theorem runAll_consistent {strict : Bool} {rules : List Rule} {e : Engine}
    (he : Engine.ofRules strict rules = .ok e) (level : ChaosLevel) (seed : Nat)
    (params : Fields Datum) (state : GameState) (calls : List Call) :
    let s := (start level seed e params state).runAll calls
    let config := ChaosConfig.ofLevel s.level
    (s.active.length : Int) ≤ config.cap ∧
      (s.active.map ActiveMutation.id).Nodup ∧ (∀ a ∈ s.active, a.id ∈ config.mutations) ∧
      (s.active.Pairwise fun a b => a.mutation.touches.Disjoint b.mutation.touches) ∧
      (s.active.Pairwise fun a b => a.nonce < b.nonce) ∧
      (∀ a ∈ s.active, a.nonce < s.activations) ∧
      s.activations = s.history.length ∧
      ∀ a ∈ s.active, s.history[a.nonce]? = some a.mutation.category := by
  intro s config
  have hsound := (Engine.ofRules_spec he).2.2
  obtain ⟨hi, hf⟩ : s.Consistent :=
    consistent_invariant.runAll (fun c _ => c.keeps_true)
      (Consistent.start hsound level seed params state)
  refine ⟨Int.ofNat_le.mpr hf.few, ?_, fun a ha => ?_, hi.apart, hi.ordered, hi.below, hi.counted,
    hi.recorded⟩
  · have hids : s.active.map ActiveMutation.id = s.mutations.map Mutation.id := by
      unfold mutations
      rw [List.map_map]
      rfl
    rw [hids]
    exact hi.distinct.map id_injective
  · exact List.mem_map_of_mem (hf.permitted _ (List.mem_map_of_mem ha))

theorem runAll_consistent_coin :
    let e : Engine := ⟨true, [⟨.always "player_collect_coin" "add_score" "score+1", .always,
      .arithmetic "score" .plus 1⟩]⟩
    let s := (start (.clamp 40) 7 e [] {}).runAll
      [.setLevel (.int 90), .milestone none, .milestone none, .setLevel (.int 20)]
    Engine.ofRules true [.always "player_collect_coin" "add_score" "score+1"] = .ok e ∧
      s.activations = s.history.length ∧
      ∀ a ∈ s.active, s.history[a.nonce]? = some a.mutation.category := by
  have he : Engine.ofRules true [.always "player_collect_coin" "add_score" "score+1"] =
      .ok ⟨true, [⟨.always "player_collect_coin" "add_score" "score+1", .always,
        .arithmetic "score" .plus 1⟩]⟩ := Engine.ofRules_point true .plus _ _
  exact ⟨he, (runAll_consistent he (.clamp 40) 7 [] {}
    [.setLevel (.int 90), .milestone none, .milestone none, .setLevel (.int 20)]).2.2.2.2.2.2⟩

end Scheduler

end SeededPlay

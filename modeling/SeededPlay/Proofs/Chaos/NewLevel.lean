/-
# `SeededPlay.Proofs.Chaos.NewLevel` — what stays under a new level

A new level refuses some of the active mutations and has room for some of the others, and
the oldest of those go first.  What stays is a suffix of what is permitted, record for
record, and it is as long as there is room (`setLevel_kept`).  The engine gets there in two
loops that take mutations back by name from the list they run over; that the right records
go is because no mutation is active twice.

Under a level that everything active fits, there is nothing for the loops to do
(`setLevel_of_fits`), so the same level once more changes nothing.

The history, the count and the times are not touched on the way
(`Consistent.setLevel_spec`), and nothing is asked of the engine: a strict one takes back
as a permissive one does.
-/
import SeededPlay.Proofs.Chaos.Consistency

namespace SeededPlay

namespace Scheduler

theorem id_mem_mutations {a : ActiveMutation} {level : ChaosLevel} :
    a.id ∈ (ChaosConfig.ofLevel level).mutations ↔ a.mutation ∈ level.eligible :=
  List.mem_map_of_injective id_injective

theorem kept_eq (s : Scheduler) (level : ChaosLevel) :
    let config := ChaosConfig.ofLevel level
    let permitted := s.active.filter (·.id ∈ config.mutations)
    s.kept level = permitted.rtake (min permitted.length config.cap.toNat) := by
  intro config permitted
  have hpermitted : permitted = s.active.filter (·.mutation ∈ level.eligible) :=
    List.filter_congr fun a _ => decide_eq_decide.mpr id_mem_mutations
  have hcap : config.cap.toNat = level.tier.cap := Int.toNat_natCast _
  unfold kept List.rtake
  rw [← hpermitted, hcap]
  congr 1
  omega

theorem setLevel_of_fits {s : Scheduler} (h : s.Fits) (hweights : s.weights = weightsOf s.level) :
    setLevel s.level s = .ok ⟨⟩ s := by
  have hrefused : (s.active.filter fun a => !s.level.eligible.contains a.mutation) = [] := by
    refine List.filter_eq_nil_iff.mpr fun a ha => ?_
    simp [h.permitted _ (List.mem_map_of_mem ha)]
  have hover : s.active.length - s.cap = 0 := Nat.sub_eq_zero_of_le h.few
  have hsame : { s with weights := weightsOf s.level } = s := by rw [← hweights]
  unfold setLevel
  simp only [Attempt.bind_apply, Attempt.modify_apply, Attempt.get_apply, hsame, hrefused,
    List.map_nil, revertEach, Attempt.pure_apply, hover, revertOldest]

theorem Consistent.setLevel_spec {s : Scheduler} (h : s.Consistent) (level : ChaosLevel) :
    ∃ scene : Scene,
      let s' := { s with scene, level, weights := weightsOf level, active := s.kept level }
      Scheduler.setLevel level s = .ok ⟨⟩ s' ∧ Scheduler.setLevel level s' = .ok ⟨⟩ s' := by
  obtain ⟨scene, heq, -⟩ := Scheduler.setLevel_spec h.intact level
  have hfits : Fits { s with scene, level, weights := weightsOf level, active := s.kept level } :=
    fits_kept s level
  have hagain := setLevel_of_fits hfits rfl
  exact ⟨scene, heq, hagain⟩

/-- After every run a new level, whatever it is, keeps the newest of the active mutations
that it permits, as many as it has room for, each with the record that it had.  The history,
the count and the times stay, and the same level once more changes nothing. -/
theorem setLevel_kept {strict : Bool} {rules : List Rule} {e : Engine}
    (he : Engine.ofRules strict rules = .ok e) (level : ChaosLevel) (seed : Nat)
    (params : Fields Datum) (state : GameState) (calls : List Call) (new : Datum) :
    let s := (start level seed e params state).runAll calls
    let config := ChaosConfig.ofLevel (.ofDatum new)
    let permitted := s.active.filter (·.id ∈ config.mutations)
    ∃ s', setLevel (.ofDatum new) s = .ok ⟨⟩ s' ∧ s'.level = .ofDatum new ∧
      s'.active = permitted.rtake (min permitted.length config.cap.toNat) ∧
      s'.history = s.history ∧ s'.activations = s.activations ∧ s'.clock = s.clock ∧
      s'.lastTrigger = s.lastTrigger ∧ s'.lastScore = s.lastScore ∧
      setLevel (.ofDatum new) s' = .ok ⟨⟩ s' := by
  intro s config permitted
  have hsound := (Engine.ofRules_spec he).2.2
  have hs : s.Consistent :=
    consistent_invariant.runAll (fun c _ => c.keeps_true)
      (Consistent.start hsound level seed params state)
  obtain ⟨scene, heq, hagain⟩ := hs.setLevel_spec (.ofDatum new)
  exact ⟨_, heq, rfl, kept_eq s (.ofDatum new), rfl, rfl, rfl, rfl, rfl, hagain⟩

theorem setLevel_kept_lowered :
    let s := (start (.clamp 90) 7 ⟨false, []⟩ [] {}).runAll
      [.milestone none, .milestone none, .milestone none]
    let config := ChaosConfig.ofLevel (.ofDatum (.int 20))
    let permitted := s.active.filter (·.id ∈ config.mutations)
    Engine.ofRules false [] = .ok ⟨false, []⟩ ∧
      ∃ s', setLevel (.ofDatum (.int 20)) s = .ok ⟨⟩ s' ∧
        s'.active = permitted.rtake (min permitted.length config.cap.toNat) ∧
        setLevel (.ofDatum (.int 20)) s' = .ok ⟨⟩ s' := by
  have he : Engine.ofRules false [] = .ok ⟨false, []⟩ := rfl
  obtain ⟨s', heq, -, hactive, -, -, -, -, -, hagain⟩ := setLevel_kept he (.clamp 90) 7 [] {}
    [.milestone none, .milestone none, .milestone none] (.int 20)
  exact ⟨he, s', heq, hactive, hagain⟩

end Scheduler

end SeededPlay

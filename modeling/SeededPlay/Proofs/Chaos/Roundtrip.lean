/-
# `SeededPlay.Proofs.Chaos.Roundtrip` — a mutation applied and taken straight back

With nothing in between, taking a mutation back by the record that it left always
succeeds, and what comes of it is known from the scene before (`Mutation.apply_revert`).
The parameters are then what they were, with one exception (`Mutation.params_undone`):
the offsets of the display are taken out, even if there were any before.
-/
import SeededPlay.Proofs.Chaos.Parameters

namespace SeededPlay

namespace Mutation

theorem holds_record (m : Mutation) (s : Scene) : (m.record s).Holds m s.params where
  params := rfl
  goal := by
    intro ht
    show (m.twist.record s).goal = _
    rw [ht]
    rfl

/-- What a mutation that was applied leaves, and what taking it straight back comes to. -/
theorem apply_revert {m : Mutation} {stream : Stream} {nonce : Datum} {shown : Bool}
    {s s' : Scene} {undo : Undo} (hs : s.rules.Sound)
    (happly : m.apply stream nonce shown s = .ok undo s') :
    s'.rules.Sound ∧ s'.rules.rules = m.twist.rulesIn s.rules.rules ∧
      (∀ k ∉ m.writes, s'.params.get? k = s.params.get? k) ∧
      ∃ e : Engine, m.revert undo s' =
          .ok ⟨⟩ ⟨e, m.paramsBack (m.record s) s'.params, s'.state⟩ ∧ e.Sound ∧
        m.twist.rulesBack (m.record s) s'.rules.rules = .ok e.rules := by
  have hout := m.apply_outcome stream nonce shown hs
  rw [happly] at hout
  cases hout with
  | done hundo hsound hstrict hrules hparams =>
    have husable := m.usable_record hs hsound hstrict hrules
    rw [← hstrict, ← hundo] at husable
    obtain ⟨e, hrevert, hsound', -, hback⟩ := m.revert_spec hsound husable
    rw [hundo] at hrevert hback ⊢
    exact ⟨hsound, hrules, hparams, e, hrevert, hsound', hback⟩

theorem exists_apply (m : Mutation) (stream : Stream) (nonce : Datum) {shown : Bool} {s : Scene}
    (hs : s.rules.Sound) (hstrict : s.rules.strict = false)
    (hgravity : ∀ d ∈ s.params.get? "gravity_y", d.Numeric)
    (hflags : m = .goalShift → shown = true → ∃ fields, s.state.flags = .record fields) :
    ∃ undo s', m.apply stream nonce shown s = .ok undo s' := by
  have hflip : m.twist = .reverseScore → ∀ r ∈ s.rules.rules, r.flipped.Readable s.rules.strict :=
    fun _ => hs.flipped hstrict
  by_cases hm : m = .goalShift
  · refine m.apply_succeeds stream nonce hs hflip (fun hshown => ?_) fun _ => hgravity
    obtain ⟨fields, hfields⟩ := hflags hm hshown
    exact ⟨_, Effect.raiseFlag_eq_ok.mpr ⟨fields, hfields, rfl⟩⟩
  · rw [apply_shown hm]
    exact m.apply_succeeds stream nonce hs hflip nofun fun _ => hgravity

/-! ## Parameters -/

theorem get?_revert {m : Mutation} {stream : Stream} {nonce : Datum} {shown : Bool} {s s' : Scene}
    {undo : Undo} (hs : s.rules.Sound) (happly : m.apply stream nonce shown s = .ok undo s') :
    ∃ s'', m.revert undo s' = .ok ⟨⟩ s'' ∧ ∀ k, s''.params.get? k =
      if m = .narratorChaos ∧ k ∈ Twist.misreport.writes then none else s.params.get? k := by
  obtain ⟨-, -, hparams, e, hrevert, -⟩ := apply_revert hs happly
  refine ⟨_, hrevert, fun k => ?_⟩
  show (m.paramsBack (m.record s) s'.params).get? k = _
  rw [get?_paramsBack_writes (m.holds_record s) k]
  by_cases hk : k ∈ m.writes
  · rw [if_pos hk]
    by_cases hoff : k ∈ Twist.misreport.writes
    · have hm : m = .narratorChaos := by
        refine (List.mem_append.mp hk).elim (fun h => absurd h (m.offsets_not_mem_touches k hoff))
          fun h => ?_
        rcases owner_of_mem h with ⟨rfl, -⟩ | ⟨-, hm⟩
        · exact absurd hoff goalParam_not_mem_offsets
        · exact hm
      rw [if_pos hoff, if_pos ⟨hm, hoff⟩]
    · rw [if_neg hoff, if_neg fun h => hoff h.2]
  · have hno : ¬(m = .narratorChaos ∧ k ∈ Twist.misreport.writes) := by
      rintro ⟨rfl, hoff⟩
      exact hk (List.mem_append_right _ hoff)
    rw [if_neg hk, if_neg hno, hparams k hk]

/-- Under a permissive engine every mutation is applied, and taking it straight back puts
every parameter to what it was, except that the offsets of the display are gone.  The
gravity must count as a number, and a goal that is shifted in view of the state wants flags. -/
theorem params_undone (m : Mutation) (stream : Stream) (nonce : Datum) (shown : Bool) {s : Scene}
    (hs : s.rules.Sound) :
    (s.rules.strict = false → (∀ d ∈ s.params.get? "gravity_y", d.Numeric) →
        (m = .goalShift → shown = true → ∃ fields, s.state.flags = .record fields) →
        ∃ undo s', m.apply stream nonce shown s = .ok undo s') ∧
      ∀ undo s', m.apply stream nonce shown s = .ok undo s' →
        ∃ s'', m.revert undo s' = .ok ⟨⟩ s'' ∧ ∀ k, s''.params.get? k =
          if m = .narratorChaos ∧ k ∈ Twist.misreport.writes then none else s.params.get? k :=
  ⟨m.exists_apply stream nonce hs, fun _ _ => get?_revert hs⟩

theorem params_undone_gravity :
    ∃ undo s' s'', gravityFlip.apply ⟨.int 0, "chaos"⟩ (.int 0) true
        ⟨⟨false, []⟩, [("gravity_y", .int 800)], {}⟩ = .ok undo s' ∧
      gravityFlip.revert undo s' = .ok ⟨⟩ s'' ∧ s''.params.get? "gravity_y" = some (.int 800) := by
  have hsound : (⟨false, []⟩ : Engine).Sound := fun _ hc => absurd hc List.not_mem_nil
  have hgravity : ∀ d ∈ Fields.get? [("gravity_y", Datum.int 800)] "gravity_y", d.Numeric := by
    rintro d hd
    obtain rfl : Datum.int 800 = d := Option.some.inj hd
    exact ⟨_, rfl⟩
  obtain ⟨hdone, hundone⟩ := params_undone gravityFlip ⟨.int 0, "chaos"⟩ (.int 0) true
    (s := ⟨⟨false, []⟩, [("gravity_y", .int 800)], {}⟩) hsound
  obtain ⟨undo, s', happly⟩ := hdone rfl hgravity nofun
  obtain ⟨s'', hrevert, hparams⟩ := hundone undo s' happly
  exact ⟨undo, s', s'', happly, hrevert, hparams "gravity_y"⟩

/-- An offset that was there before is gone. -/
theorem not_undone_offset :
    ∃ undo s' s'', narratorChaos.apply ⟨.int 0, "chaos"⟩ (.int 0) true
        ⟨⟨false, []⟩, [("score_display_offset", .int 5)], {}⟩ = .ok undo s' ∧
      narratorChaos.revert undo s' = .ok ⟨⟩ s'' ∧
      s''.params.get? "score_display_offset" = none := by
  have hsound : (⟨false, []⟩ : Engine).Sound := fun _ hc => absurd hc List.not_mem_nil
  obtain ⟨undo, s', happly⟩ : ∃ undo s', narratorChaos.apply ⟨.int 0, "chaos"⟩ (.int 0) true
      ⟨⟨false, []⟩, [("score_display_offset", .int 5)], {}⟩ = .ok undo s' :=
    narratorChaos.exists_apply _ _ hsound rfl nofun nofun
  obtain ⟨s'', hrevert, hparams⟩ := get?_revert hsound happly
  exact ⟨undo, s', s'', happly, hrevert, hparams "score_display_offset"⟩

end Mutation

end SeededPlay

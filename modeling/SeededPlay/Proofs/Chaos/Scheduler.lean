/-
# `SeededPlay.Proofs.Chaos.Scheduler` — the two steps of a scheduler

Whatever a scheduler does to its active mutations it does in two steps: it takes one
back (`Scheduler.revert`) or it lets one begin (`Scheduler.begin`).  A scheduler is
`Intact` when its list of active mutations, its count of activations and its history
tell the same story and every record on the list can be used.  On an intact scheduler
taking back never fails (`revert_spec`); both steps keep it intact, and a beginning
needs nothing but a mutation that is `Ready`.

How many mutations there may be, and which the level permits (`Fits`), is kept apart:
a new level breaks it until the mutations that do not fit any longer are gone.

## Taking back

The active mutations are distinct, so taking out the first of a name takes out all of that
name (`eraseP_eq_filter`), and a list of names can be taken back one after another with
nothing else touched (`keeps_intact_revert`, `revertOldest_spec`).  The record decides what
becomes of the scene, and since it can be used nothing fails (`revert_of_mem`).

## Beginning

What a mutation keeps of the scene, its beginning keeps (`keeps_begin`).  There are two
outcomes (`begin_cases`): the mutation is on the list with its record, or the scheduler is
as it was but for the scene.  An activation adds the draw in front.  What is drawn is a
candidate, a candidate is ready once there is room (`ready_of_candidate`), and what stays
leaves room for one more unless there is no room at all (`Fits.length_staying_lt`).  So an
activation makes room and lets a ready mutation begin, or it changes nothing
(`activate_cases`).
-/
import SeededPlay.Proofs.Chaos.Undo
import SeededPlay.Chaos.Scheduler

namespace SeededPlay

open Attempt (reached Keeps)

namespace Scheduler

/-- The active mutations, the oldest first. -/
def mutations (s : Scheduler) : List Mutation := s.active.map (·.mutation)

/-- The active mutations, their records and the history agree with each other. -/
structure Intact (s : Scheduler) : Prop where
  /-- The engine holds what its rules mean. -/
  sound : s.scene.rules.Sound
  /-- Every record can be used. -/
  usable : ∀ a ∈ s.active, a.undo.Usable s.scene.rules.strict
  /-- No mutation is active twice. -/
  distinct : s.mutations.Nodup
  /-- No two active mutations write the same parameter. -/
  apart : s.active.Pairwise fun a b => a.mutation.touches.Disjoint b.mutation.touches
  /-- The nonces grow along the list. -/
  ordered : s.active.Pairwise fun a b => a.nonce < b.nonce
  /-- Nonces count the activations before. -/
  below : ∀ a ∈ s.active, a.nonce < s.activations
  /-- Every activation is in the history. -/
  counted : s.activations = s.history.length
  /-- The history holds the categories of the active mutations. -/
  recorded : ∀ a ∈ s.active, s.history[a.nonce]? = some a.mutation.category

/-- The active mutations are as many as the level allows, and all permitted by it. -/
structure Fits (s : Scheduler) : Prop where
  few : s.active.length ≤ s.cap
  permitted : ∀ m ∈ s.mutations, m ∈ s.level.eligible

theorem Intact.shrink {s : Scheduler} (h : s.Intact) {scene : Scene} {active : List ActiveMutation}
    (hsound : scene.rules.Sound) (hstrict : scene.rules.strict = s.scene.rules.strict)
    (hsub : active.Sublist s.active) : Intact { s with scene, active } where
  sound := hsound
  usable := fun a ha => hstrict ▸ h.usable a (hsub.subset ha)
  distinct := (hsub.map _).nodup h.distinct
  apart := h.apart.sublist hsub
  ordered := h.ordered.sublist hsub
  below := fun a ha => h.below a (hsub.subset ha)
  counted := h.counted
  recorded := fun a ha => h.recorded a (hsub.subset ha)

/-! ## Taking back -/

theorem onScene_ok {α : Type} {x : Attempt Scene α} {s : Scheduler} {a : α} {scene : Scene}
    (h : x s.scene = .ok a scene) : onScene x s = .ok a { s with scene } := by
  unfold onScene Attempt.within
  rw [h]

theorem onScene_error {α : Type} {x : Attempt Scene α} {s : Scheduler} {f : Fault} {scene : Scene}
    (h : x s.scene = .error f scene) : onScene x s = .error f { s with scene } := by
  unfold onScene Attempt.within
  rw [h]

theorem eraseP_eq_filter {active : List ActiveMutation} (h : (active.map (·.mutation)).Nodup)
    (m : Mutation) :
    active.eraseP (·.mutation = m) = active.filter (·.mutation ≠ m) := by
  induction active with
  | nil => rfl
  | cons a active ih =>
    rw [List.map_cons] at h
    obtain ⟨hnot, hnd⟩ := List.nodup_cons.mp h
    by_cases ha : a.mutation = m
    · rw [List.eraseP_cons_of_pos (by simpa using ha), List.filter_cons_of_neg (by simpa using ha)]
      refine (List.filter_eq_self.mpr fun b hb => ?_).symm
      have hne : b.mutation ≠ m := by
        rintro rfl
        exact hnot (ha ▸ List.mem_map_of_mem (f := (·.mutation)) hb)
      simpa using hne
    · rw [List.eraseP_cons_of_neg (by simpa using ha), List.filter_cons_of_pos (by simpa using ha),
        ih hnd]

theorem revert_of_not_mem {s : Scheduler} {m : Mutation} (h : m ∉ s.mutations) :
    revert m s = .ok false s := by
  have hfind : s.active.find? (·.mutation = m) = none := by
    refine List.find?_eq_none.mpr fun a ha hm => h ?_
    have hm : a.mutation = m := by simpa using hm
    exact hm ▸ List.mem_map_of_mem (f := (·.mutation)) ha
  unfold revert
  simp only [Attempt.bind_apply, Attempt.get_apply, hfind, Attempt.pure_apply]

/-- Taking an active mutation back never fails.  Its record decides what becomes of the
scene. -/
theorem revert_of_mem {s : Scheduler} (h : s.Intact) {a : ActiveMutation} (ha : a ∈ s.active) :
    ∃ e : Engine, e.Sound ∧ e.strict = s.scene.rules.strict ∧
      a.mutation.twist.rulesBack a.undo s.scene.rules.rules = .ok e.rules ∧
      revert a.mutation s = .ok true { s with
        scene := ⟨e, a.mutation.paramsBack a.undo s.scene.params, s.scene.state⟩
        active := s.active.filter (·.mutation ≠ a.mutation) } := by
  have hfind : s.active.find? (·.mutation = a.mutation) = some a := by
    cases hf : s.active.find? (·.mutation = a.mutation) with
    | none => exact absurd (List.find?_eq_none.mp hf a ha) (by simp)
    | some b =>
      have hb : b.mutation = a.mutation := by simpa using List.find?_some hf
      have hinj := List.inj_on_of_nodup_map h.distinct (List.mem_of_find?_eq_some hf) ha hb
      rw [hinj]
  obtain ⟨e, hrevert, hsound, hstrict, hrules⟩ :=
    a.mutation.revert_spec h.sound (h.usable a ha)
  refine ⟨e, hsound, hstrict, hrules, ?_⟩
  unfold revert
  simp only [Attempt.bind_apply, Attempt.get_apply, hfind, onScene_ok hrevert,
    Attempt.modify_apply, Attempt.pure_apply, eraseP_eq_filter h.distinct]

theorem revert_spec {s : Scheduler} (h : s.Intact) (m : Mutation) :
    ∃ (b : Bool) (scene : Scene), scene.state = s.scene.state ∧
      scene.rules.strict = s.scene.rules.strict ∧
      revert m s =
        .ok b { s with scene, active := s.active.filter (·.mutation ≠ m) } ∧
      Intact { s with scene, active := s.active.filter (·.mutation ≠ m) } := by
  by_cases hm : m ∈ s.mutations
  · obtain ⟨a, ha, rfl⟩ := List.mem_map.mp hm
    obtain ⟨e, hsound, hstrict, -, hrevert⟩ := revert_of_mem h ha
    exact ⟨true, ⟨e, a.mutation.paramsBack a.undo s.scene.params, s.scene.state⟩, rfl, hstrict,
      hrevert, h.shrink hsound hstrict List.filter_sublist⟩
  · have hall : s.active.filter (·.mutation ≠ m) = s.active := by
      refine List.filter_eq_self.mpr fun a ha => ?_
      have hne : a.mutation ≠ m := fun he => hm (he ▸ List.mem_map_of_mem (f := (·.mutation)) ha)
      simpa using hne
    refine ⟨false, s.scene, rfl, rfl, ?_, ?_⟩
    · rw [revert_of_not_mem hm, hall]
    · rw [hall]
      exact h

theorem keeps_intact_revert (m : Mutation) : Keeps Intact (revert m) := by
  intro s hs
  obtain ⟨b, scene, -, -, heq, hintact⟩ := revert_spec hs m
  rw [heq]
  exact hintact

theorem revertEach_spec {s : Scheduler} (h : s.Intact) (ms : List Mutation) :
    ∃ scene : Scene, revertEach ms s =
        .ok ⟨⟩ { s with scene, active := s.active.filter (·.mutation ∉ ms) } ∧
      Intact { s with scene, active := s.active.filter (·.mutation ∉ ms) } := by
  induction ms generalizing s with
  | nil =>
    have hall : s.active.filter (·.mutation ∉ ([] : List Mutation)) = s.active :=
      List.filter_eq_self.mpr fun a _ => by simp
    refine ⟨s.scene, ?_, ?_⟩
    · rw [hall]
      rfl
    · rw [hall]
      exact h
  | cons m ms ih =>
    obtain ⟨b, scene, -, -, hrevert, hintact⟩ := revert_spec h m
    obtain ⟨scene', heach, hintact'⟩ := ih hintact
    have hfilter : (s.active.filter (·.mutation ≠ m)).filter (·.mutation ∉ ms) =
        s.active.filter (·.mutation ∉ m :: ms) := by
      rw [List.filter_filter]
      refine List.filter_congr fun a _ => ?_
      simp only [List.mem_cons, not_or, Bool.decide_and, Bool.and_comm]
    refine ⟨scene', ?_, ?_⟩
    · unfold revertEach
      rw [Attempt.bind_apply, Attempt.discard_apply, hrevert]
      simp only [heach, hfilter]
    · rw [← hfilter]
      exact hintact'

theorem revertOldest_spec {s : Scheduler} (h : s.Intact) (n : Nat) :
    ∃ scene : Scene, revertOldest n s = .ok ⟨⟩ { s with scene, active := s.active.drop n } ∧
      Intact { s with scene, active := s.active.drop n } := by
  induction n generalizing s with
  | zero => exact ⟨s.scene, rfl, h⟩
  | succ n ih =>
    unfold revertOldest
    simp only [Attempt.bind_apply, Attempt.get_apply]
    cases hactive : s.active with
    | nil =>
      refine ⟨s.scene, congrArg _ ?_, ?_⟩
      · rw [List.drop_nil, ← hactive]
      · rw [List.drop_nil, ← hactive]
        exact h
    | cons a rest =>
      obtain ⟨b, scene, -, -, hrevert, hintact⟩ := revert_spec h a.mutation
      have hrest : s.active.filter (·.mutation ≠ a.mutation) = rest := by
        rw [← eraseP_eq_filter h.distinct, hactive]
        exact List.eraseP_cons_of_pos (by simp)
      rw [hrest] at hrevert hintact
      obtain ⟨scene', hold, hintact'⟩ := ih hintact
      refine ⟨scene', ?_, hintact'⟩
      simp only [Attempt.bind_apply, Attempt.discard_apply, hrevert, hold, List.drop_succ_cons]

/-! ## Beginning -/

theorem clashes_eq_false {m n : Mutation} :
    m.clashes n = false ↔ m.touches.Disjoint n.touches := by
  unfold Mutation.clashes
  simp only [List.any_eq_false, List.contains_iff_mem]
  exact ⟨fun h k hm hn => h k hm hn, fun h k hm hn => h hm hn⟩

/-- A mutation that may begin: permitted, in nobody's way, and with room for it. -/
structure Ready (m : Mutation) (s : Scheduler) : Prop where
  permitted : m ∈ s.level.eligible
  inactive : m ∉ s.mutations
  apart : ∀ a ∈ s.active, m.touches.Disjoint a.mutation.touches
  room : s.active.length < s.cap

/-- The entry of a mutation that begins. -/
def entry (s : Scheduler) (m : Mutation) (shown : Bool) (undo : Undo) (expires : Option Number) :
    ActiveMutation := ⟨m, s.activations, s.now shown, expires, undo⟩

/-- The scheduler when a mutation has begun. -/
def begun (s : Scheduler) (scene : Scene) (a : ActiveMutation) : Scheduler :=
  { s with
    scene
    active := s.active ++ [a]
    history := s.history ++ [a.mutation.category]
    activations := s.activations + 1 }

theorem begin_eq (m : Mutation) (shown : Bool) (s : Scheduler) :
    begin m shown s = match m.apply s.stream (.int s.activations) shown s.scene with
      | .error f scene => .error f { s with scene }
      | .ok undo scene => match expiry m (s.now shown) with
        | .error f => .error f { s with scene }
        | .ok expires =>
          .ok (s.entry m shown undo expires) (s.begun scene (s.entry m shown undo expires)) := by
  unfold begin
  simp only [Attempt.bind_apply, Attempt.get_apply]
  cases hr : m.apply s.stream (.int s.activations) shown s.scene with
  | error f scene => simp only [onScene_error hr]
  | ok undo scene =>
    simp only [onScene_ok hr]
    cases expiry m (s.now shown) with
    | error f => rfl
    | ok expires => rfl

theorem keeps_begin {P : Scene → Prop} {m : Mutation} {shown : Bool}
    (h : ∀ stream nonce, Keeps P (m.apply stream nonce shown)) :
    Keeps (fun s : Scheduler => P s.scene) (begin m shown) := by
  refine Keeps.bind Keeps.get fun s => ?_
  refine Keeps.bind (Keeps.within (h _ _) (fun _ hs => hs) fun _ _ hs => hs) fun undo => ?_
  refine Keeps.bind (Keeps.lift _) fun expires => ?_
  exact Keeps.bind (Keeps.modify fun _ hs => hs) fun _ => Keeps.pure _

theorem Intact.begun {s : Scheduler} (h : s.Intact) {scene : Scene} {a : ActiveMutation}
    (hready : s.Ready a.mutation) (hsound : scene.rules.Sound)
    (hstrict : scene.rules.strict = s.scene.rules.strict)
    (husable : a.undo.Usable s.scene.rules.strict) (hnonce : a.nonce = s.activations) :
    (s.begun scene a).Intact where
  sound := hsound
  usable := by
    intro b hb
    show b.undo.Usable scene.rules.strict
    rw [hstrict]
    rcases List.mem_append.mp hb with hb | hb
    · exact h.usable b hb
    · rw [List.mem_singleton.mp hb]
      exact husable
  distinct := by
    show ((s.active ++ [a]).map (·.mutation)).Nodup
    rw [List.map_append, List.nodup_append]
    refine ⟨h.distinct, List.nodup_singleton _, fun m hm n hn he => ?_⟩
    rw [he, List.mem_singleton.mp hn] at hm
    exact hready.inactive hm
  apart := by
    refine List.pairwise_append.mpr ⟨h.apart, List.pairwise_singleton _ _, fun b hb c hc => ?_⟩
    rw [List.mem_singleton.mp hc]
    exact (hready.apart b hb).symm
  ordered := by
    refine List.pairwise_append.mpr ⟨h.ordered, List.pairwise_singleton _ _, fun b hb c hc => ?_⟩
    rw [List.mem_singleton.mp hc, hnonce]
    exact h.below b hb
  below := by
    intro b hb
    rcases List.mem_append.mp hb with hb | hb
    · exact Nat.lt_succ_of_lt (h.below b hb)
    · rw [List.mem_singleton.mp hb, hnonce]
      exact Nat.lt_succ_self _
  counted := by
    show s.activations + 1 = (s.history ++ [a.mutation.category]).length
    rw [List.length_append, List.length_singleton, h.counted]
  recorded := by
    intro b hb
    show (s.history ++ [a.mutation.category])[b.nonce]? = _
    rcases List.mem_append.mp hb with hb | hb
    · rw [List.getElem?_append_left (h.counted ▸ h.below b hb)]
      exact h.recorded b hb
    · rw [List.mem_singleton.mp hb, hnonce, h.counted, List.getElem?_concat_length]

/-- What comes of a beginning: the mutation is on the list with its record, or the
scheduler is as it was but for the scene. -/
theorem begin_cases {s : Scheduler} (h : s.Intact) {m : Mutation} (hready : s.Ready m)
    (shown : Bool) :
    (∃ scene expires, m.Outcome s.scene (.ok (m.record s.scene) scene) ∧
      reached (begin m shown s) =
        s.begun scene (s.entry m shown (m.record s.scene) expires) ∧
      (reached (begin m shown s)).Intact) ∨
    ∃ scene, reached (begin m shown s) = { s with scene } ∧
      (reached (begin m shown s)).Intact := by
  have hout := m.apply_outcome s.stream (.int s.activations) shown h.sound
  rw [begin_eq]
  cases hr : m.apply s.stream (.int s.activations) shown s.scene with
  | error f scene =>
    rw [hr] at hout
    cases hout with
    | failed _ hsound hstrict =>
      exact Or.inr ⟨scene, rfl, h.shrink hsound hstrict (List.Sublist.refl _)⟩
  | ok undo scene =>
    rw [hr] at hout
    cases hout with
    | done hundo hsound hstrict hrules hparams =>
      have husable := m.usable_record h.sound hsound hstrict hrules
      rw [← hundo] at husable
      simp only
      cases expiry m (s.now shown) with
      | error f => exact Or.inr ⟨scene, rfl, h.shrink hsound hstrict (List.Sublist.refl _)⟩
      | ok expires =>
        refine Or.inl ⟨scene, expires, .done rfl hsound hstrict hrules hparams, ?_, ?_⟩
        · rw [← hundo]
          rfl
        · exact h.begun (a := s.entry m shown undo expires) hready hsound hstrict husable rfl

/-! ## Activation -/

theorem mem_of_pick {α : Type} {k : UInt32} {options : List α} {a : α}
    (h : Draw.pick k options = .ok (some a)) : a ∈ options := by
  unfold Draw.pick at h
  split at h
  · cases h
  · obtain ⟨i, -, h⟩ := bind_eq_ok.mp h
    split at h
    · rename_i b hb
      obtain rfl := Option.some.inj (Except.ok.inj h)
      exact List.mem_of_getElem? hb
    · cases h

theorem mem_candidates {s : Scheduler} {m : Mutation} (h : s.drawMutation = .ok (some m)) :
    m ∈ s.candidates := by
  obtain ⟨c?, -, h⟩ := bind_eq_ok.mp h
  cases c? with
  | none => cases h
  | some c => exact (List.mem_filter.mp (mem_of_pick h)).1

theorem makeRoom_spec {s : Scheduler} (h : s.Intact) :
    ∃ scene : Scene, scene.state = s.scene.state ∧
      makeRoom s = .ok ⟨⟩ { s with scene, active := s.staying } ∧
      Intact { s with scene, active := s.staying } := by
  unfold makeRoom staying
  simp only [Attempt.bind_apply, Attempt.get_apply]
  cases hfull : s.isFull with
  | false => exact ⟨s.scene, rfl, rfl, h⟩
  | true =>
    simp only [if_true]
    cases hactive : s.active with
    | nil =>
      refine ⟨s.scene, rfl, congrArg _ ?_, ?_⟩
      · rw [List.drop_nil, ← hactive]
      · rw [List.drop_nil, ← hactive]
        exact h
    | cons a rest =>
      obtain ⟨b, scene, hstate, -, hrevert, hintact⟩ := revert_spec h a.mutation
      have hrest : s.active.filter (·.mutation ≠ a.mutation) = rest := by
        rw [← eraseP_eq_filter h.distinct, hactive]
        exact List.eraseP_cons_of_pos (by simp)
      rw [hrest] at hrevert hintact
      refine ⟨scene, hstate, ?_, hintact⟩
      simp only [Attempt.discard_apply, hrevert, List.drop_succ_cons, List.drop_zero]

/-- What stays leaves room for one more, unless there is no room at all. -/
theorem Fits.length_staying_lt {s : Scheduler} (h : s.Fits) (hcap : s.cap ≠ 0) :
    s.staying.length < s.cap := by
  have hfew := h.few
  unfold staying isFull
  split
  · rw [List.length_drop]
    omega
  · rename_i hroom
    simp only [decide_eq_true_eq] at hroom
    omega

theorem ready_of_candidate {s : Scheduler} (hfits : s.Fits) (hcap : s.cap ≠ 0) {m : Mutation}
    (hm : m ∈ s.candidates) (scene : Scene) : Ready m { s with scene, active := s.staying } := by
  obtain ⟨hpermitted, hall⟩ := List.mem_filter.mp hm
  have hall := List.all_eq_true.mp hall
  refine ⟨hpermitted, fun hmem => ?_, fun a ha => ?_, ?_⟩
  · obtain ⟨a, ha, rfl⟩ := List.mem_map.mp hmem
    have := hall a ha
    simp at this
  · have := hall a ha
    simp only [Bool.and_eq_true, Bool.not_eq_true'] at this
    exact clashes_eq_false.mp this.2
  · exact hfits.length_staying_lt hcap

/-- An activation makes room and lets a ready mutation begin, or it changes nothing. -/
theorem activate_cases {s : Scheduler} (h : s.Intact) (hfits : s.Fits) (shown : Bool) :
    reached (activate shown s) = s ∨
      ∃ m s', reached (makeRoom s) = s' ∧ s'.Intact ∧ s'.scene.state = s.scene.state ∧
        Ready m s' ∧ reached (activate shown s) = reached (begin m shown s') := by
  unfold activate
  simp only [Attempt.bind_apply, Attempt.get_apply]
  by_cases hcap : s.cap = 0
  · rw [if_pos hcap]
    exact Or.inl rfl
  · rw [if_neg hcap]
    cases hdraw : s.drawMutation with
    | error f => exact Or.inl rfl
    | ok m? =>
      cases m? with
      | none => exact Or.inl rfl
      | some m =>
        obtain ⟨scene, hstate, hroom, hintact⟩ := makeRoom_spec h
        refine Or.inr ⟨m, _, rfl, ?_, ?_, ?_, ?_⟩
        · rw [hroom]
          exact hintact
        · rw [hroom]
          exact hstate
        · rw [hroom]
          exact ready_of_candidate hfits hcap (mem_candidates hdraw) scene
        · simp only [Attempt.bind_apply, Attempt.lift_ok, hroom, Attempt.reached_ok]
          cases begin m shown { s with scene, active := s.staying } <;> rfl

end Scheduler

end SeededPlay

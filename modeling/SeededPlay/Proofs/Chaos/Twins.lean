/-
# `SeededPlay.Proofs.Chaos.Twins` — schedulers that do the same

The `outline` of a scheduler is what it goes by when it decides which mutation begins and
when one ends.  It leaves out the scene, what the parameters were at the start, and the
records by which mutations are taken back.  Two schedulers with one outline, shown states
with one clock and one score, are twins (`Twin`).

Twins do the same: every operation succeeds in both or fails in both, and they end as twins
(`Agree`).  Taking back needs nothing but intact schedulers.  Rules, parameters and flags do
decide whether a mutation can be applied, though, so where one begins the twins must be
schedulers where that cannot fail (`Steady`): under permissive engines, with a gravity that
counts as a number.

## Decisions

Everything by which a scheduler decides is a function of its outline: its candidates, the
draw, what has run out, what stays.  So each of these comes with an equation between the two
sides, and `Twin` is closed under every change that is a function of the outline, such as
mutations that go (`Twin.remove`).  What goes the same way for twins, and keeps their kind,
goes the same way for twins of the kind (`agree_of_keeps`); this is how intact twins become
steady ones without a second walk through the operations.

## Where they could part

A mutation that begins reads the scene, which the twins do not share.  On steady schedulers
it cannot fail, so it begins in both of two twins with one entry, or in neither
(`same_begin`).  Flags that are a record stay one (`flagged_invariant`), so a goal can be
shifted in either.  From there the operations are again sequences of what goes the same
way, and what is noted down on both sides leaves steady twins (`agree_note`).
-/
import SeededPlay.Proofs.Chaos.Activation
import SeededPlay.Proofs.Chaos.Frame

namespace SeededPlay

open Attempt (reached Keeps Same Agree)

/-! ## Outlines -/

/-- An active mutation without the record by which it is taken back. -/
def ActiveMutation.outline (a : ActiveMutation) : ActiveMutation := { a with undo := {} }

namespace Scheduler

/-- What the schedule goes by. -/
def outline (s : Scheduler) : Scheduler :=
  { s with base := [], scene := default, active := s.active.map .outline }

theorem mutations_outline (s : Scheduler) : s.outline.mutations = s.mutations := by
  show (s.active.map ActiveMutation.outline).map _ = _
  rw [List.map_map]
  rfl

theorem outline_filter (active : List ActiveMutation) (p : Mutation → Bool) :
    (active.filter fun a => p a.mutation).map ActiveMutation.outline =
      (active.map ActiveMutation.outline).filter fun a => p a.mutation := by
  rw [List.filter_map]
  rfl

theorem staying_outline (s : Scheduler) :
    s.outline.staying = s.staying.map ActiveMutation.outline := by
  have hfull : s.outline.isFull = s.isFull := by
    show decide (s.cap ≤ (s.active.map ActiveMutation.outline).length) = _
    rw [List.length_map]
    rfl
  unfold staying
  rw [hfull]
  split
  · exact List.map_drop.symm
  · rfl

theorem candidates_outline (s : Scheduler) : s.outline.candidates = s.candidates := by
  unfold candidates
  rw [staying_outline]
  refine List.filter_congr fun m _ => ?_
  rw [List.all_map]
  rfl

theorem drawMutation_outline (s : Scheduler) : s.outline.drawMutation = s.drawMutation := by
  unfold drawMutation
  rw [candidates_outline]
  rfl

theorem expired_outline (elapsed : Datum) (active : List ActiveMutation) :
    expired elapsed (active.map ActiveMutation.outline) = expired elapsed active := by
  induction active with
  | nil => rfl
  | cons a active ih =>
    rw [List.map_cons, expired, expired, ih]
    rfl

/-- Two schedulers with one outline, shown states with one score and one clock. -/
structure Twin (shown : Bool) (s t : Scheduler) : Prop where
  outline : s.outline = t.outline
  view : shown = true → s.state.score = t.state.score ∧ s.state.elapsed = t.state.elapsed

namespace Twin

variable {shown : Bool} {s t : Scheduler}

theorem quiet (h : Twin shown s t) : Twin false s t := ⟨h.outline, fun hf => Bool.noConfusion hf⟩

theorem active (h : Twin shown s t) :
    s.active.map ActiveMutation.outline = t.active.map ActiveMutation.outline :=
  congrArg Scheduler.active h.outline

theorem mutations (h : Twin shown s t) : s.mutations = t.mutations := by
  rw [← mutations_outline s, ← mutations_outline t, h.outline]

theorem level (h : Twin shown s t) : s.level = t.level :=
  show s.outline.level = t.outline.level from congrArg Scheduler.level h.outline

theorem cap (h : Twin shown s t) : s.cap = t.cap :=
  congrArg (fun level => Tier.cap (ChaosLevel.tier level)) h.level

theorem length_active (h : Twin shown s t) : s.active.length = t.active.length := by
  have hlength := congrArg List.length h.active
  rwa [List.length_map, List.length_map] at hlength

theorem drawMutation (h : Twin shown s t) : s.drawMutation = t.drawMutation := by
  rw [← drawMutation_outline s, ← drawMutation_outline t, h.outline]

theorem expired (h : Twin shown s t) (elapsed : Datum) :
    expired elapsed s.active = expired elapsed t.active := by
  rw [← expired_outline elapsed s.active, ← expired_outline elapsed t.active, h.active]

theorem now (h : Twin shown s t) : s.now shown = t.now shown := by
  have hclock : s.outline.clock = t.outline.clock := congrArg Scheduler.clock h.outline
  unfold Scheduler.now
  cases shown with
  | false => exact hclock
  | true => rw [show s.clock = t.clock from hclock, (h.view rfl).2]

theorem scoreOf (h : Twin shown s t) : s.scoreOf shown = t.scoreOf shown := by
  unfold Scheduler.scoreOf
  cases shown with
  | false => rfl
  | true => rw [(h.view rfl).1]

theorem remove (h : Twin shown s t) {scene scene' : Scene} (hs : scene.state = s.scene.state)
    (ht : scene'.state = t.scene.state) {active active' : List ActiveMutation}
    (hactive : active.map ActiveMutation.outline = active'.map ActiveMutation.outline) :
    Twin shown { s with scene, active } { t with scene := scene', active := active' } where
  outline := by
    show ({ s.outline with active := active.map .outline } : Scheduler) =
      { t.outline with active := active'.map .outline }
    rw [h.outline, hactive]
  view := by
    intro hshown
    show scene.state.score = scene'.state.score ∧ scene.state.elapsed = scene'.state.elapsed
    rw [hs, ht]
    exact h.view hshown

end Twin

/-! ## Taking back -/

/-- Twins of a kind. -/
def Twins (P : Scheduler → Prop) (shown : Bool) (s t : Scheduler) : Prop :=
  P s ∧ P t ∧ Twin shown s t

section Twins

variable {α β : Type} {P Q : Scheduler → Prop} {shown : Bool} {V : α → β → Prop}
  {x : Attempt Scheduler α} {y : Attempt Scheduler β}

/-- What goes the same way for twins, and keeps their kind, goes the same way for twins of
the kind. -/
theorem agree_of_keeps (hx : Keeps P x) (hy : Keeps P y)
    (h : ∀ s t, Twins P shown s t → Same (Twin shown) V (x s) (y t)) :
    Agree (Twins P shown) V x y := by
  intro s t hst
  exact (h s t hst).imp (fun htwin => ⟨hx s hst.1, hy t hst.2.1, htwin⟩) fun _ _ hv => hv

theorem agree_of_agree (hPQ : ∀ s, P s → Q s) (hx : Keeps P x) (hy : Keeps P y)
    (h : Agree (Twins Q shown) V x y) : Agree (Twins P shown) V x y := by
  refine agree_of_keeps hx hy fun s t hst => ?_
  exact (h s t ⟨hPQ s hst.1, hPQ t hst.2.1, hst.2.2⟩).imp (fun hr => hr.2.2) fun _ _ hv => hv

end Twins

variable {shown : Bool}

theorem agree_revert (m : Mutation) : Agree (Twins Intact shown) Eq (revert m) (revert m) := by
  refine agree_of_keeps (keeps_intact_revert m) (keeps_intact_revert m) ?_
  rintro s t ⟨hs, ht, h⟩
  by_cases hm : m ∈ s.mutations
  · obtain ⟨a, ha, rfl⟩ := List.mem_map.mp hm
    obtain ⟨b, hb, hab⟩ := List.mem_map.mp (h.mutations ▸ hm)
    obtain ⟨e, -, -, -, hrevert⟩ := revert_of_mem hs ha
    obtain ⟨e', -, -, -, hrevert'⟩ := revert_of_mem ht hb
    rw [hrevert, ← hab, hrevert']
    refine .ok rfl (h.remove ?_ ?_ ?_)
    · rfl
    · rfl
    · have hfilter := fun active => outline_filter active fun n => n ≠ b.mutation
      rw [hfilter, hfilter, h.active]
  · rw [revert_of_not_mem hm, revert_of_not_mem (h.mutations ▸ hm)]
    exact .ok rfl h

theorem agree_revertEach (ms : List Mutation) :
    Agree (Twins Intact shown) Eq (revertEach ms) (revertEach ms) := by
  induction ms with
  | nil => exact Agree.pure rfl
  | cons m ms ih => exact (agree_revert m).discard.bind fun _ _ _ => ih

theorem Twin.active_cases {s t : Scheduler} (h : Twin shown s t) :
    s.active = [] ∧ t.active = [] ∨ ∃ a as b bs, s.active = a :: as ∧ t.active = b :: bs ∧
      a.mutation = b.mutation := by
  have hactive := h.active
  cases hs : s.active with
  | nil =>
    rw [hs] at hactive
    exact .inl ⟨rfl, List.map_eq_nil_iff.mp hactive.symm⟩
  | cons a as =>
    rw [hs] at hactive
    cases ht : t.active with
    | nil =>
      rw [ht] at hactive
      cases hactive
    | cons b bs =>
      rw [ht] at hactive
      have hhead : a.outline = b.outline := (List.cons.inj hactive).1
      exact .inr ⟨a, as, b, bs, rfl, rfl, congrArg (·.mutation) hhead⟩

theorem agree_revertOldest (n : Nat) :
    Agree (Twins Intact shown) Eq (revertOldest n) (revertOldest n) := by
  induction n with
  | zero => exact Agree.pure rfl
  | succ n ih =>
    refine Agree.get.bind fun s t hst => ?_
    rcases hst.2.2.active_cases with ⟨hs, ht⟩ | ⟨a, as, b, bs, hs, ht, hab⟩
    · rw [hs, ht]
      exact Agree.pure rfl
    · rw [hs, ht]
      simp only [hab]
      exact (agree_revert b.mutation).discard.bind fun _ _ _ => ih

theorem agree_makeRoom : Agree (Twins Intact shown) Eq makeRoom makeRoom := by
  refine Agree.get.bind fun s t hst => ?_
  have hfull : s.isFull = t.isFull := by
    unfold isFull
    rw [hst.2.2.cap, hst.2.2.length_active]
  rw [hfull]
  split
  · rcases hst.2.2.active_cases with ⟨hs, ht⟩ | ⟨a, as, b, bs, hs, ht, hab⟩
    · rw [hs, ht]
      exact Agree.pure rfl
    · rw [hs, ht]
      simp only [hab]
      exact (agree_revert b.mutation).discard
  · exact Agree.pure rfl

theorem agree_expire (elapsed : Datum) :
    Agree (Twins Intact shown) Eq (expire elapsed) (expire elapsed) := by
  refine Agree.get.bind fun s t hst => ?_
  rw [hst.2.2.expired elapsed]
  refine Agree.lift.bind fun gone gone' hgone => ?_
  subst hgone
  exact (agree_revertEach gone).bind fun _ _ _ => Agree.pure rfl

theorem agree_revertNamed (id : String) :
    Agree (Twins Intact shown) Eq (revertNamed id) (revertNamed id) := by
  unfold revertNamed
  cases (Vocabulary.ofWord? id : Option Mutation) with
  | none => exact Agree.pure rfl
  | some m => exact agree_revert m

theorem agree_revertAll : Agree (Twins Intact shown) Eq revertAll revertAll := by
  refine Agree.get.bind fun s t hst => ?_
  have hsame : s.active.reverse.map (·.mutation) = t.active.reverse.map (·.mutation) := by
    rw [List.map_reverse, List.map_reverse]
    exact congrArg List.reverse hst.2.2.mutations
  rw [hsame]
  refine (agree_revertEach _).bind fun _ _ _ => Agree.modify ?_
  rintro s t ⟨hs, ht, h⟩
  refine ⟨hs.shrink hs.sound rfl (List.Sublist.refl _),
    ht.shrink ht.sound rfl (List.Sublist.refl _), h.remove ?_ ?_ h.active⟩
  · rfl
  · rfl

theorem agree_setLevel (level : ChaosLevel) :
    Agree (Twins Intact shown) Eq (setLevel level) (setLevel level) := by
  refine Agree.bind (Agree.modify ?_) fun _ _ _ => ?_
  · rintro s t ⟨hs, ht, h⟩
    refine ⟨hs.setLevel, ht.setLevel, ?_, h.view⟩
    show ({ s.outline with level, weights := weightsOf level } : Scheduler) =
      { t.outline with level, weights := weightsOf level }
    rw [h.outline]
  · refine Agree.get.bind fun s t hst => ?_
    have hrefused : ∀ c : Scheduler, (c.active.filter fun a =>
        !level.eligible.contains a.mutation).map (·.mutation) =
          c.mutations.filter fun m => !level.eligible.contains m := fun c => by
      unfold mutations
      rw [List.filter_map]
      rfl
    simp only [hrefused, hst.2.2.mutations]
    refine (agree_revertEach _).bind fun _ _ _ => Agree.get.bind fun s t hst => ?_
    rw [hst.2.2.length_active, hst.2.2.cap]
    exact agree_revertOldest _

/-! ## Steady schedulers -/

/-- A state whose flags are a record. -/
def Flagged (st : GameState) : Prop := ∃ fields, st.flags = .record fields

/-- Schedulers where mutations cannot fail half way. -/
structure Steady (s : Scheduler) : Prop where
  consistent : s.Consistent
  grounded : s.Grounded
  permissive : s.scene.rules.strict = false

theorem flagged_invariant : Invariant (fun _ => True) Flagged Consistent where
  consistent := fun h => h
  note := fun hn h => h.note hn
  revert := fun h m => h.revert m
  begin := fun h _ hready shown _ => h.begin hready shown
  beginState := by
    intro s _ m _ hflags
    refine keeps_begin (P := fun scene => Flagged scene.state) (fun stream nonce => ?_) s hflags
    refine m.keeps_state stream nonce true fun _ _ st st' hraise _ => ?_
    obtain ⟨fields, -, rfl⟩ := Effect.raiseFlag_eq_ok.mp hraise
    exact ⟨_, rfl⟩
  setLevel := fun h level => h.setLevel level
  reset := fun h _ => h.setParams _

theorem steady_invariant : Invariant (fun _ => True) Flagged Steady := by
  refine ((flagged_invariant.and grounded_invariant).and (strict_invariant false)).congr fun s => ?_
  constructor
  · rintro ⟨⟨hs, -, hground⟩, -, hstrict⟩
    exact ⟨hs, hground, hstrict⟩
  · rintro ⟨hs, hground, hstrict⟩
    exact ⟨⟨hs, hs, hground⟩, hs, hstrict⟩

open Invariant (During)

/-- Twins that are steady, and shown states whose flags are a record. -/
def SteadyTwins (shown : Bool) : Scheduler → Scheduler → Prop :=
  Twins (During Flagged Steady shown) shown

/-- Taking back goes the same way for steady twins. -/
theorem agree_steady {α : Type} {x : Attempt Scheduler α}
    (hx : Keeps (During Flagged Steady shown) x) (h : Agree (Twins Intact shown) Eq x x) :
    Agree (SteadyTwins shown) Eq x x :=
  agree_of_agree (fun _ hs => hs.1.consistent.intact) hx hx h

theorem agree_note {g : Scheduler → Scheduler} (hnote : ∀ s, Note (fun _ => True) s (g s))
    (hstate : ∀ s, (g s).scene.state = s.scene.state)
    (houtline : ∀ s t, Twin shown s t → (g s).outline = (g t).outline) :
    Agree (SteadyTwins shown) Eq (modify g) (modify g) := by
  refine Agree.modify fun s t hst => ?_
  refine ⟨hst.1.noted steady_invariant (hnote s) (hstate s),
    hst.2.1.noted steady_invariant (hnote t) (hstate t), houtline s t hst.2.2, fun hshown => ?_⟩
  show (g s).scene.state.score = (g t).scene.state.score ∧
    (g s).scene.state.elapsed = (g t).scene.state.elapsed
  rw [hstate, hstate]
  exact hst.2.2.view hshown

/-! ## Activation -/

theorem exists_apply {s : Scheduler} (h : During Flagged Steady shown s) (m : Mutation) :
    ∃ undo scene, m.apply s.stream (.int s.activations) shown s.scene = .ok undo scene := by
  refine m.apply_succeeds s.stream (.int s.activations) h.1.consistent.intact.sound
    (fun _ => h.1.consistent.intact.sound.flipped h.1.permissive) (fun hshown => ?_)
    fun _ => h.1.grounded.scene
  obtain ⟨fields, hfields⟩ := h.2 hshown
  exact ⟨_, Effect.raiseFlag_eq_ok.mpr ⟨fields, hfields, rfl⟩⟩

theorem outline_begun (s : Scheduler) (scene : Scene) (a : ActiveMutation) :
    (s.begun scene a).outline = s.outline.begun default a.outline := by
  have hactive : (s.active ++ [a]).map ActiveMutation.outline =
      s.active.map ActiveMutation.outline ++ [a.outline] := List.map_append
  show ({ s.outline with active := _, history := _, activations := _ } : Scheduler) = _
  rw [begun, hactive]
  rfl

/-- A mutation that begins, begins in both of two twins with one entry, or in neither. -/
theorem same_begin {s t : Scheduler} (h : SteadyTwins shown s t) (m : Mutation) :
    Same (Twin shown) (fun a b => a.outline = b.outline) (begin m shown s) (begin m shown t) := by
  obtain ⟨hs, ht, htwin⟩ := h
  obtain ⟨undo, scene, happly⟩ := exists_apply hs m
  obtain ⟨undo', scene', happly'⟩ := exists_apply ht m
  have hview : shown = true → scene.state.score = scene'.state.score ∧
      scene.state.elapsed = scene'.state.elapsed := by
    intro hshown
    rw [(Mutation.view_apply happly).1, (Mutation.view_apply happly).2, (Mutation.view_apply happly').1,
      (Mutation.view_apply happly').2]
    exact htwin.view hshown
  have hactivations : s.outline.activations = t.outline.activations :=
    congrArg Scheduler.activations htwin.outline
  rw [begin_eq, begin_eq, happly, happly', htwin.now]
  dsimp only
  cases expiry m (t.now shown) with
  | error f => exact .error f ⟨htwin.outline, hview⟩
  | ok expires =>
    have hentry : (s.entry m shown undo expires).outline = (t.entry m shown undo' expires).outline := by
      show (⟨m, s.activations, s.now shown, expires, {}⟩ : ActiveMutation) =
        ⟨m, t.activations, t.now shown, expires, {}⟩
      rw [htwin.now, show s.activations = t.activations from hactivations]
    refine .ok hentry ⟨?_, hview⟩
    rw [outline_begun, outline_begun, htwin.outline, hentry]

/-- The entry of an activation on both sides, or none. -/
def EntryTwins (a? b? : Option ActiveMutation) : Prop :=
  a?.map ActiveMutation.outline = b?.map ActiveMutation.outline

theorem same_activate {s t : Scheduler} (h : SteadyTwins shown s t) :
    Same (Twin shown) EntryTwins (activate shown s) (activate shown t) := by
  obtain ⟨hs, ht, htwin⟩ := h
  have hsi := hs.1.consistent.intact
  have hti := ht.1.consistent.intact
  by_cases hcap : s.cap = 0
  · have hcap' : t.cap = 0 := htwin.cap ▸ hcap
    unfold activate
    simp only [Attempt.bind_apply, Attempt.get_apply, if_pos hcap, if_pos hcap']
    exact .ok rfl htwin
  · have hcap' : t.cap ≠ 0 := htwin.cap ▸ hcap
    cases hdraw : s.drawMutation with
    | error f =>
      have hdraw' : t.drawMutation = .error f := htwin.drawMutation ▸ hdraw
      unfold activate
      simp only [Attempt.bind_apply, Attempt.get_apply, if_neg hcap, if_neg hcap', hdraw, hdraw']
      exact .error f htwin
    | ok m? =>
      have hdraw' : t.drawMutation = .ok m? := htwin.drawMutation ▸ hdraw
      cases m? with
      | none =>
        unfold activate
        simp only [Attempt.bind_apply, Attempt.get_apply, if_neg hcap, if_neg hcap', hdraw, hdraw']
        exact .ok rfl htwin
      | some m =>
        have hroom : SteadyTwins shown (reached (makeRoom s)) (reached (makeRoom t)) :=
          (agree_steady (steady_invariant.keeps_makeRoom shown) agree_makeRoom
            s t ⟨hs, ht, htwin⟩).reached
        have hbegin := same_begin hroom m
        rw [activate_of_drawn hsi hcap hdraw, activate_of_drawn hti hcap' hdraw']
        generalize begin m shown (reached (makeRoom s)) = x at hbegin
        generalize begin m shown (reached (makeRoom t)) = y at hbegin
        cases hbegin with
        | ok hab hst => exact .ok (congrArg some hab) hst
        | error f hst => exact .error f hst

theorem agree_activate : Agree (SteadyTwins shown) EntryTwins (activate shown) (activate shown) :=
  agree_of_keeps (steady_invariant.keeps_activate shown) (steady_invariant.keeps_activate shown)
    fun _ _ hst => same_activate hst

/-- Entries of activations on both sides, one by one. -/
def EntriesTwins (as bs : List ActiveMutation) : Prop :=
  as.map ActiveMutation.outline = bs.map ActiveMutation.outline

theorem agree_activateTimes (n : Nat) :
    Agree (SteadyTwins shown) EntriesTwins (activateTimes shown n) (activateTimes shown n) := by
  induction n with
  | zero => exact Agree.pure rfl
  | succ n ih =>
    refine agree_activate.bind fun a? b? hab => ih.bind fun as bs habs => Agree.pure ?_
    show (a?.toList ++ as).map _ = (b?.toList ++ bs).map _
    rw [List.map_append, List.map_append, ← Option.toList_map, ← Option.toList_map,
      show as.map _ = bs.map _ from habs, show a?.map _ = b?.map _ from hab]

/-! ## Milestones and the timer -/

theorem agree_observe :
    Agree (SteadyTwins shown) EntriesTwins (observe shown) (observe shown) := by
  refine Agree.get.bind fun s t hst => ?_
  obtain ⟨-, -, htwin⟩ := hst
  have hlast : s.outline.lastScore = t.outline.lastScore :=
    congrArg Scheduler.lastScore htwin.outline
  have htier : s.tier = t.tier := congrArg ChaosLevel.tier htwin.level
  rw [htwin.scoreOf, htier, show s.lastScore = t.lastScore from hlast]
  refine Agree.lift.bind fun score score' hscore => ?_
  subst hscore
  refine Agree.bind (agree_note ?_ (fun _ => rfl) ?_) fun _ _ _ => ?_
  · exact fun s => ⟨rfl, rfl, rfl, rfl, rfl, rfl, rfl, .inl rfl⟩
  · intro s t h
    show ({ s.outline with lastScore := score } : Scheduler) = { t.outline with lastScore := score }
    rw [h.outline]
  · cases t.tier.milestone with
    | none => exact Agree.pure rfl
    | some interval =>
      refine Agree.lift.bind fun n n' hn => ?_
      subst hn
      exact agree_activateTimes n.toNat

theorem agree_tick (elapsed : Datum) :
    Agree (SteadyTwins shown) EntryTwins (tick elapsed shown) (tick elapsed shown) := by
  refine Agree.bind (agree_note ?_ (fun _ => rfl) ?_) fun _ _ _ => ?_
  · exact fun s => ⟨rfl, rfl, rfl, rfl, rfl, rfl, rfl, .inr trivial⟩
  · intro s t h
    show ({ s.outline with clock := elapsed } : Scheduler) = { t.outline with clock := elapsed }
    rw [h.outline]
  refine (agree_steady (steady_invariant.keeps_expire shown elapsed)
    (agree_expire elapsed)).discard.bind fun _ _ _ => ?_
  refine Agree.get.bind fun s t hst => ?_
  obtain ⟨-, -, htwin⟩ := hst
  have hlast : s.outline.lastTrigger = t.outline.lastTrigger :=
    congrArg Scheduler.lastTrigger htwin.outline
  have hdue : s.isDue elapsed s.lastTrigger = t.isDue elapsed t.lastTrigger := by
    unfold isDue tier
    rw [htwin.level, show s.lastTrigger = t.lastTrigger from hlast]
  rw [hdue]
  refine Agree.lift.bind fun due due' hsame => ?_
  subst hsame
  cases due with
  | false => exact Agree.pure rfl
  | true =>
    refine Agree.bind (agree_note ?_ (fun _ => rfl) ?_) fun _ _ _ => agree_activate
    · exact fun s => ⟨rfl, rfl, rfl, rfl, rfl, rfl, rfl, .inl rfl⟩
    · intro s t h
      show ({ s.outline with lastTrigger := elapsed } : Scheduler) =
        { t.outline with lastTrigger := elapsed }
      rw [h.outline]

end Scheduler

end SeededPlay

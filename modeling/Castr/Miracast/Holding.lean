import Castr.Miracast.Serve

/-! Who owns the display: the lifecycle, the serve loop and the arbiter beside the castr path. -/

namespace Castr.Miracast.Sink

open Castr.Lib.Run
open Castr.Receiver (Owner)

theorem castr_miracast (op : CastrOp) (owner : Owner) :
    op.apply owner = .miracast ↔ owner = .miracast := by
  cases op <;> cases owner <;> decide

theorem fits_same (owner : Owner) (s next : Serve) (kept : SameHold s next) (fits : Fits owner s) :
    Fits owner next :=
  ⟨kept.held ▸ fits.held, kept.held ▸ kept.life ▸ fits.phase, kept.conn ▸ kept.life ▸ fits.conn,
    kept.life ▸ fits.since⟩

theorem coherent_turned (owner : Owner) (s : Serve) (event : ServeEvent) (next : Sink)
    (fits : Fits owner s) (branch : Turned owner s event next) : Coherent next := by
  cases branch with
  | castr op same =>
      exact ⟨(castr_miracast op owner).trans fits.held, fits.phase, fits.conn, fits.since⟩
  | quiet next kept => exact fits_same owner s next kept fits
  | closed finished =>
      show (if s.held then Owner.idle else owner) ≠ .miracast
      split
      · exact nofun
      · rename_i unheld
        exact mt fits.held.mp unheld
  | joined mac same next kept => exact fits_same owner s next kept fits
  | abandoned mac same next holding other life held conn =>
      have closed : s.conn = none := not_not.mp (mt fits.conn.mp (by simp [holding]))
      exact ⟨by simp [held], by simp [held, life, Lifecycle.new],
        by simp [conn, closed, life, Lifecycle.new], by simp [life, Lifecycle.new]⟩
  | dropped now cause next streaming life held conn =>
      have before : s.held = true := fits.phase.mpr (by simp [streaming])
      exact ⟨held ▸ fits.held, by simp [held, before, life], by simp [conn, life], by simp [life]⟩
  | connected station between now same next taken granted life held conn =>
      exact ⟨by simp [held], by simp [held, life], by simp [conn, life], by simp [life]⟩
  | expired since now same next holding noted late life freed conn =>
      have closed : s.conn = none := not_not.mp (mt fits.conn.mp (by simp [holding]))
      exact ⟨by simp [freed], by simp [freed, life, Lifecycle.new],
        by simp [conn, closed, life, Lifecycle.new], by simp [life, Lifecycle.new]⟩

theorem step_none (owner : Owner) (event : ServeEvent) (free : owner ≠ .miracast) :
    Coherent (step ⟨owner, none⟩ event).1 ∧ (step ⟨owner, none⟩ event).1.owner ≠ .miracast := by
  cases event with
  | castr op =>
      have still := mt (castr_miracast op owner).mp free
      exact ⟨still, still⟩
  | groupUp entropy taken =>
      cases taken with
      | false => exact ⟨free, free⟩
      | true =>
          refine ⟨?_, free⟩
          exact ⟨iff_of_false free nofun, iff_of_false nofun (fun moved => moved rfl),
            iff_of_false (fun open_ => open_ rfl) nofun, iff_of_false (fun noted =>
              noted rfl) nofun⟩
  | _ => exact ⟨free, free⟩

theorem coherent_step (sink : Sink) (event : ServeEvent) (coherent : Coherent sink) :
    Coherent (step sink event).1 := by
  obtain ⟨owner, serve⟩ := sink
  cases serve with
  | none => exact (step_none owner event coherent).1
  | some s => exact coherent_turned owner s event _ coherent (turned owner s event coherent)

theorem coherent_run (events : List ServeEvent) : Coherent (final step new events) :=
  final_invariant step new events Coherent nofun
    (fun sink event _ coherent => coherent_step sink event coherent)

def phaseOf (sink : Sink) : Option Phase := sink.serve.map (fun s => s.life.phase)

def endTime : ServeEvent → Option Nat
  | .clientDisconnected _ now => some now
  | .sessionEnded _ now => some now
  | _ => none

/-- The last session ended at a time, and its screen has been held since. -/
inductive HeldSince : List ServeEvent → Nat → Prop where
  | ended (front : List ServeEvent) (event : ServeEvent) (now : Nat)
      (streaming : phaseOf (final step new front) = some .streaming)
      (holding : phaseOf (final step new (front ++ [event])) = some .holding)
      (time : endTime event = some now) : HeldSince (front ++ [event]) now
  | still (front : List ServeEvent) (event : ServeEvent) (since : Nat)
      (before : HeldSince front since)
      (holding : phaseOf (final step new (front ++ [event])) = some .holding) :
      HeldSince (front ++ [event]) since

def Abandons (sink : Sink) (event : ServeEvent) : Prop :=
  ∃ mac s, event = .clientConnected mac ∧ sink.serve = some s ∧ s.life.phase = .holding ∧
    s.sessionPeer ≠ some (lowerMac mac)

/-- The display of a run: the three that know of it agree, the hold lasts, and neither protocol
takes the display from the other. -/
structure Owned (events : List ServeEvent) : Prop where
  agree : ∀ front back, events = front ++ back → ∀ s, (final step new front).serve = some s →
    ((final step new front).owner = .miracast ↔ s.held = true) ∧
      (s.held = true ↔ s.life.phase = .streaming ∨ s.life.phase = .holding) ∧
      (s.conn ≠ none ↔ s.life.phase = .streaming)
  free : ∀ front back, events = front ++ back → (final step new front).serve = none →
    (final step new front).owner ≠ .miracast
  kept : ∀ front event back, events = front ++ event :: back →
    (final step new front).owner = .miracast →
      (step (final step new front) event).1.owner ≠ .miracast →
        event = .stop ∨ RadioFails event ∨ Abandons (final step new front) event ∨
          ∃ since now, event = .tick now ∧ HeldSince front since ∧ since + holdTime ≤ now
  expires : ∀ front now back since, events = front ++ .tick now :: back → HeldSince front since →
    since + holdTime ≤ now → (step (final step new front) (.tick now)).1.owner = .idle
  castrWaits : ∀ front event back, events = front ++ event :: back →
    (final step new front).owner = .miracast →
      (step (final step new front) event).1.owner ≠ .castr
  miracastWaits : ∀ front event back, events = front ++ event :: back →
    (final step new front).owner = .castr →
      (step (final step new front) event).1.owner ≠ .miracast

theorem life_turned (owner : Owner) (s next : Serve) (event : ServeEvent) (after : Owner)
    (branch : Turned owner s event ⟨after, some next⟩) :
    next.life = s.life ∨
      (s.life.phase = .streaming ∧
        ∃ now, endTime event = some now ∧ next.life = ⟨.holding, some now⟩) ∨
      next.life = .new ∨ next.life = ⟨.streaming, none⟩ := by
  cases branch with
  | castr op same => exact Or.inl rfl
  | quiet next kept => exact Or.inl kept.life
  | joined mac same next kept => exact Or.inl kept.life
  | abandoned mac same next holding other life => exact Or.inr (Or.inr (Or.inl life))
  | dropped now cause next streaming life =>
      refine Or.inr (Or.inl ⟨streaming, now, ?_, life⟩)
      rcases cause with ⟨mac, rfl, _⟩ | ⟨reason, rfl⟩ <;> rfl
  | connected station between now same next taken granted life =>
      exact Or.inr (Or.inr (Or.inr life))
  | expired since now same next holding noted late life => exact Or.inr (Or.inr (Or.inl life))

theorem life_step (sink : Sink) (event : ServeEvent) (s next : Serve) (coherent : Coherent sink)
    (before : sink.serve = some s) (after : (step sink event).1.serve = some next) :
    next.life = s.life ∨
      (s.life.phase = .streaming ∧
        ∃ now, endTime event = some now ∧ next.life = ⟨.holding, some now⟩) ∨
      next.life = .new ∨ next.life = ⟨.streaming, none⟩ := by
  obtain ⟨owner, serve⟩ := sink
  obtain rfl : serve = some s := before
  have branch := turned owner s event coherent
  have shape : (step ⟨owner, some s⟩ event).1 =
      ⟨(step ⟨owner, some s⟩ event).1.owner, some next⟩ := by rw [← after]
  rw [shape] at branch
  exact life_turned owner s next event _ branch

theorem life_fresh (sink : Sink) (event : ServeEvent) (next : Serve) (before : sink.serve = none)
    (after : (step sink event).1.serve = some next) : next.life = .new := by
  obtain ⟨owner, serve⟩ := sink
  obtain rfl : serve = none := before
  cases event with
  | groupUp entropy taken =>
      cases taken with
      | false => cases after
      | true =>
          cases after
          rfl
  | _ => cases after

theorem phaseOf_some (sink : Sink) (phase : Phase) (known : phaseOf sink = some phase) :
    ∃ s, sink.serve = some s ∧ s.life.phase = phase := by
  simpa [phaseOf] using known

theorem heldSince_of_noted (events : List ServeEvent) (s : Serve) (since : Nat)
    (up : (final step new events).serve = some s) (noted : s.life.holdingSince = some since) :
    HeldSince events since := by
  revert s
  apply final_induction step new events
    (fun front state => ∀ s, state.serve = some s → s.life.holdingSince = some since →
      HeldSince front since)
  · intro s up
    cases up
  · intro front event back _ known next after noted
    have coherent := coherent_run front
    have holding : phaseOf (final step new (front ++ [event])) = some .holding := by
      have fits := coherent_run (front ++ [event])
      rw [final_snoc] at fits ⊢
      simp only [Coherent, after] at fits
      simp [phaseOf, after, fits.since.mp (by simp [noted])]
    cases before : (final step new front).serve with
    | none =>
        rw [life_fresh _ event next before after] at noted
        cases noted
    | some s =>
        rcases life_step _ event s next coherent before after with
          same | ⟨streaming, now, time, life⟩ | life | life
        · exact .still front event since (known s before (same ▸ noted)) holding
        · rw [life] at noted
          cases noted
          exact .ended front event _ (by simp [phaseOf, before, streaming]) holding time
        · rw [life] at noted
          cases noted
        · rw [life] at noted
          cases noted

theorem noted_of_heldSince (events : List ServeEvent) (since : Nat)
    (held : HeldSince events since) :
    ∃ s, (final step new events).serve = some s ∧ s.life = ⟨.holding, some since⟩ := by
  induction held with
  | ended front event now streaming holding time =>
      obtain ⟨s, before, phase⟩ := phaseOf_some _ _ streaming
      obtain ⟨next, after, later⟩ := phaseOf_some _ _ holding
      refine ⟨next, after, ?_⟩
      rw [final_snoc] at after
      rcases life_step _ event s next (coherent_run front) before after with
        same | ⟨_, at_, found, life⟩ | life | life
      · rw [same, phase] at later
        cases later
      · rw [life]
        rw [time] at found
        cases found
        rfl
      · rw [life] at later
        cases later
      · rw [life] at later
        cases later
  | still front event since _ holding ih =>
      obtain ⟨s, before, noted⟩ := ih
      obtain ⟨next, after, later⟩ := phaseOf_some _ _ holding
      refine ⟨next, after, ?_⟩
      rw [final_snoc] at after
      rcases life_step _ event s next (coherent_run front) before after with
        same | ⟨streaming, _⟩ | life | life
      · rw [same, noted]
      · rw [noted] at streaming
        cases streaming
      · rw [life] at later
        cases later
      · rw [life] at later
        cases later

theorem released_turned (owner : Owner) (s : Serve) (event : ServeEvent) (next : Sink)
    (branch : Turned owner s event next) (mine : owner = .miracast)
    (freed : next.owner ≠ .miracast) :
    event = .stop ∨ RadioFails event ∨
      (∃ mac, event = .clientConnected mac ∧ s.life.phase = .holding ∧
        s.sessionPeer ≠ some (lowerMac mac)) ∨
      ∃ since now, event = .tick now ∧ s.life.holdingSince = some since ∧
        since + holdTime ≤ now := by
  cases branch with
  | castr op same => exact absurd ((castr_miracast op owner).mpr mine) freed
  | quiet next kept => exact absurd mine freed
  | closed finished => exact finished.imp_right Or.inl
  | joined mac same next kept => exact absurd mine freed
  | abandoned mac same next holding other =>
      exact Or.inr (Or.inr (Or.inl ⟨mac, same, holding, other⟩))
  | dropped now cause next streaming => exact absurd mine freed
  | connected station between now same next taken => exact absurd rfl freed
  | expired since now same next holding noted late =>
      exact Or.inr (Or.inr (Or.inr ⟨since, now, same, noted, late⟩))

theorem castr_waits (owner : Owner) (s : Serve) (event : ServeEvent) (next : Sink)
    (branch : Turned owner s event next) (mine : owner = .miracast) : next.owner ≠ .castr := by
  subst mine
  cases branch with
  | castr op same => cases op <;> exact nofun
  | closed finished =>
      dsimp only
      split <;> exact nofun
  | _ => exact nofun

theorem miracast_waits (owner : Owner) (s : Serve) (event : ServeEvent) (next : Sink)
    (fits : Fits owner s) (branch : Turned owner s event next) (theirs : owner = .castr) :
    next.owner ≠ .miracast := by
  subst theirs
  have unheld : s.held ≠ true := fun held => by cases fits.held.mpr held
  have advertising : s.life.phase = .advertising := not_not.mp (mt fits.phase.mpr unheld)
  cases branch with
  | castr op same => exact mt (castr_miracast op .castr).mp nofun
  | closed finished =>
      dsimp only
      rw [if_neg unheld]
      exact nofun
  | connected station between now same next taken granted =>
      rcases granted with holding | idle
      · rw [advertising] at holding
        cases holding
      · cases idle
  | _ => exact nofun

theorem expires_tick (owner : Owner) (s : Serve) (since now : Nat) (fits : Fits owner s)
    (noted : s.life.holdingSince = some since) (late : since + holdTime ≤ now) :
    (step ⟨owner, some s⟩ (.tick now)).1.owner = .idle := by
  have holding : s.life.phase = .holding := fits.since.mp (by simp [noted])
  have held : s.held = true := fits.phase.mpr (by simp [holding])
  have mine : owner = .miracast := fits.held.mpr held
  subst mine
  have finished : ¬ now - since < holdTime := by omega
  have change : s.life.tick now = (.new, [.releaseDisplay]) := by
    simp [Lifecycle.tick, noted, finished]
  simp [step, tick, change, carryOut, applyAll, applyLifecycle, held, Owner.release]

theorem turned_run (front : List ServeEvent) (event : ServeEvent) (s : Serve)
    (up : (final step new front).serve = some s) :
    Fits (final step new front).owner s ∧
      Turned (final step new front).owner s event (step (final step new front) event).1 := by
  have coherent := coherent_run front
  simp only [Coherent, up] at coherent
  have shape : final step new front = ⟨(final step new front).owner, some s⟩ := by rw [← up]
  refine ⟨coherent, ?_⟩
  rw [shape]
  exact turned _ s event coherent

theorem free_run (front : List ServeEvent) (down : (final step new front).serve = none) :
    (final step new front).owner ≠ .miracast := by
  have coherent := coherent_run front
  simpa only [Coherent, down] using coherent

theorem owned_while_serving (events : List ServeEvent) : Owned events where
  agree := by
    intro front back _ s up
    have fits := (turned_run front .stop s up).1
    refine ⟨fits.held, fits.phase.trans ?_, fits.conn⟩
    cases s.life.phase <;> simp
  free := fun front _ _ down => free_run front down
  kept := by
    intro front event back _ mine freed
    cases up : (final step new front).serve with
    | none => exact absurd mine (free_run front up)
    | some s =>
        have branch := (turned_run front event s up).2
        rcases released_turned _ s event _ branch mine freed with
          stop | fails | ⟨mac, same, holding, other⟩ | ⟨since, now, same, noted, late⟩
        · exact Or.inl stop
        · exact Or.inr (Or.inl fails)
        · exact Or.inr (Or.inr (Or.inl ⟨mac, s, same, up, holding, other⟩))
        · have held := heldSince_of_noted front s since up noted
          exact Or.inr (Or.inr (Or.inr ⟨since, now, same, held, late⟩))
  expires := by
    intro front now back since _ held late
    obtain ⟨s, up, life⟩ := noted_of_heldSince front since held
    have fits := (turned_run front .stop s up).1
    have shape : final step new front = ⟨(final step new front).owner, some s⟩ := by rw [← up]
    rw [shape]
    exact expires_tick _ s since now fits (by rw [life]) late
  castrWaits := by
    intro front event back _ mine
    cases up : (final step new front).serve with
    | none => exact absurd mine (free_run front up)
    | some s => exact castr_waits _ s event _ (turned_run front event s up).2 mine
  miracastWaits := by
    intro front event back _ theirs
    cases up : (final step new front).serve with
    | none =>
        have shape : final step new front = ⟨(final step new front).owner, none⟩ := by rw [← up]
        have free := free_run front up
        rw [shape]
        exact (step_none _ event free).2
    | some s =>
        obtain ⟨fits, branch⟩ := turned_run front event s up
        exact miracast_waits _ s event _ fits branch theirs

end Castr.Miracast.Sink

import Castr.Miracast.Holding

/-! Whose session streams or is held, beside the station the serve loop takes it for. -/

namespace Castr.Miracast.Sink

open Castr.Lib.Run
open Castr.Receiver (Owner)

structure Watched where
  sink : Sink
  caster : Option String

def taken (sink : Sink) (event : ServeEvent) : Option String :=
  sink.serve.bind (fun s => connects sink.owner s event)

def watch (w : Watched) (event : ServeEvent) : Watched × List Told :=
  (⟨(step w.sink event).1, (taken w.sink event).or w.caster⟩, (step w.sink event).2)

def begun : Watched := ⟨new, none⟩

theorem watch_sink (events : List ServeEvent) :
    (final watch begun events).sink = final step new events := by
  apply final_induction watch begun events (fun front w => w.sink = final step new front) rfl
  intro front event back _ same
  rw [final_snoc, ← same]
  rfl

/-- The session of a run belongs to the station that cast it: nobody else ends it or is taken for
its owner, and the owner's leaving always ends it and starts the hold. -/
structure Attributed (events : List ServeEvent) : Prop where
  owner : ∀ front back s, events = front ++ back → (final watch begun front).sink.serve = some s →
    s.life.phase ≠ .advertising → s.sessionPeer = (final watch begun front).caster
  others : ∀ front event back s mac, events = front ++ event :: back →
    (final watch begun front).sink.serve = some s → s.life.phase = .streaming →
    (event = .clientConnected mac ∨ ∃ now, event = .clientDisconnected mac now) →
    (final watch begun front).caster ≠ some (lowerMac mac) →
    ∃ next, (step (final watch begun front).sink event).1.serve = some next ∧
      next.life.phase = .streaming ∧ next.conn = s.conn ∧ next.sessionPeer = s.sessionPeer
  departure : ∀ front mac now back s, events = front ++ .clientDisconnected mac now :: back →
    (final watch begun front).sink.serve = some s → s.life.phase = .streaming →
    (final watch begun front).caster = some (lowerMac mac) →
    ∃ next, (step (final watch begun front).sink (.clientDisconnected mac now)).1.serve =
      some next ∧ next.life = ⟨.holding, some now⟩ ∧ next.conn = none

/-- Every connection that is taken comes from the station that joined last, and no other station
joins while a session streams. -/
def Tidy (events : List ServeEvent) : Prop :=
  ∀ front event back s, events = front ++ event :: back →
    (final watch begun front).sink.serve = some s →
    (∀ station, connects (final watch begun front).sink.owner s event = some station →
      s.sessionPeer = some station) ∧
    (∀ mac, event = .clientConnected mac → s.life.phase = .streaming →
      s.sessionPeer = some (lowerMac mac))

theorem watch_snoc (front : List ServeEvent) (event : ServeEvent) :
    final watch begun (front ++ [event]) =
      ⟨(step (final watch begun front).sink event).1,
        (taken (final watch begun front).sink event).or (final watch begun front).caster⟩ := by
  rw [final_snoc]
  rfl

theorem watch_turned (front : List ServeEvent) (event : ServeEvent) (s : Serve)
    (up : (final watch begun front).sink.serve = some s) :
    Fits (final watch begun front).sink.owner s ∧
      Turned (final watch begun front).sink.owner s event
        (step (final watch begun front).sink event).1 := by
  rw [watch_sink] at up ⊢
  exact turned_run front event s up

theorem peer_turned (owner : Owner) (s next : Serve) (event : ServeEvent) (after : Owner)
    (branch : Turned owner s event ⟨after, some next⟩)
    (busy : next.life.phase ≠ .advertising) :
    next.sessionPeer = s.sessionPeer ∨
      (s.life.phase = .streaming ∧ ∃ mac, event = .clientConnected mac ∧
        next.sessionPeer = some (lowerMac mac)) := by
  cases branch with
  | castr op same => exact Or.inl rfl
  | quiet next kept peer => exact Or.inl peer
  | joined mac same next kept peer mine =>
      cases phase : s.life.phase with
      | advertising =>
          rw [kept.life, phase] at busy
          exact absurd rfl busy
      | streaming => exact Or.inr ⟨rfl, mac, same, peer⟩
      | holding => exact Or.inl (peer.trans (mine phase).symm)
  | abandoned mac same next holding other life =>
      rw [life] at busy
      exact absurd rfl busy
  | dropped now cause next streaming life held conn peer => exact Or.inl peer
  | connected station between now same next taken granted life held conn peer => exact Or.inl peer
  | expired since now same next held noted late life =>
      rw [life] at busy
      exact absurd rfl busy

theorem busy_turned (owner : Owner) (s next : Serve) (event : ServeEvent) (after : Owner)
    (branch : Turned owner s event ⟨after, some next⟩) (busy : next.life.phase ≠ .advertising) :
    s.life.phase ≠ .advertising ∨ connects owner s event ≠ none := by
  cases branch with
  | castr op same => exact Or.inl busy
  | quiet next kept => exact Or.inl (kept.life ▸ busy)
  | joined mac same next kept => exact Or.inl (kept.life ▸ busy)
  | abandoned mac same next holding other life => exact Or.inl (by simp [holding])
  | dropped now cause next streaming => exact Or.inl (by simp [streaming])
  | connected station between now same next taken => exact Or.inr (by simp [taken])
  | expired since now same next held noted => exact Or.inl (by simp [held])

theorem connects_streams (owner : Owner) (s : Serve) (event : ServeEvent) (station : String)
    (next : Sink) (branch : Turned owner s event next)
    (found : connects owner s event = some station) :
    ∃ after, next.serve = some after ∧ after.life.phase = .streaming ∧
      after.sessionPeer = s.sessionPeer := by
  cases branch with
  | castr op same =>
      subst same
      cases found
  | quiet next kept peer unjoined refused =>
      rw [refused] at found
      cases found
  | closed finished =>
      rcases finished with rfl | fails
      · cases found
      · cases event <;> first | cases found | cases fails
  | joined mac same =>
      subst same
      cases found
  | abandoned mac same =>
      subst same
      cases found
  | dropped now cause =>
      rcases cause with ⟨_, rfl, _⟩ | ⟨_, rfl⟩ <;> cases found
  | connected station between now same next taken granted life held conn peer =>
      exact ⟨next, rfl, by rw [life], peer⟩
  | expired since now same =>
      subst same
      cases found

theorem owner_of_tidy (events : List ServeEvent) (tidy : Tidy events) (front back : List ServeEvent)
    (s : Serve) (split : events = front ++ back)
    (up : (final watch begun front).sink.serve = some s) (busy : s.life.phase ≠ .advertising) :
    s.sessionPeer = (final watch begun front).caster := by
  revert s
  apply prefix_induction watch begun events (fun _ w => ∀ s, w.sink.serve = some s →
    s.life.phase ≠ .advertising → s.sessionPeer = w.caster) ?_ ?_ front back split
  · intro s up
    cases up
  · intro front event back split known next after busy
    have stepped : (step (final watch begun front).sink event).1.serve = some next := after
    cases before : (final watch begun front).sink.serve with
    | none => exact absurd (congrArg Lifecycle.phase (life_fresh _ event next before stepped)) busy
    | some s =>
        have branch := (watch_turned front event s before).2
        have named : taken (final watch begun front).sink event =
            connects (final watch begun front).sink.owner s event := by simp [taken, before]
        have shape : (step (final watch begun front).sink event).1 =
            ⟨(step (final watch begun front).sink event).1.owner, some next⟩ := by rw [← stepped]
        show next.sessionPeer = (taken _ event).or _
        rw [named]
        cases found : connects (final watch begun front).sink.owner s event with
        | some station =>
            obtain ⟨after, same, _, kept⟩ := connects_streams _ s event station _ branch found
            rw [stepped] at same
            cases same
            rw [kept, (tidy front event back s split before).1 station found]
            rfl
        | none =>
            rw [shape] at branch
            have on := (busy_turned _ s next event _ branch busy).resolve_right
              (fun moved => moved found)
            have mine := known s before on
            rcases peer_turned _ s next event _ branch busy with same | ⟨streaming, mac,
              joined, peer⟩
            · rw [same, mine]
              rfl
            · rw [peer, ← (tidy front event back s split before).2 mac joined streaming, mine]
              rfl

theorem joins_stream (owner : Owner) (s : Serve) (mac : String)
    (streaming : s.life.phase = .streaming) :
    ∃ next, (step ⟨owner, some s⟩ (.clientConnected mac)).1.serve = some next ∧
      next.life = s.life ∧ next.sessionPeer = some (lowerMac mac) := by
  simp [step, clientConnected, streaming]

theorem others_leave (owner : Owner) (s : Serve) (mac : String) (now : Nat)
    (other : s.sessionPeer ≠ some (lowerMac mac)) :
    ∃ next, (step ⟨owner, some s⟩ (.clientDisconnected mac now)).1.serve = some next ∧
      next.life = s.life ∧ next.conn = s.conn ∧ next.sessionPeer = s.sessionPeer := by
  simp [step, clientDisconnected, other]

theorem owner_leaves (owner : Owner) (s : Serve) (mac : String) (now : Nat)
    (streaming : s.life.phase = .streaming) (mine : s.sessionPeer = some (lowerMac mac)) :
    ∃ next, (step ⟨owner, some s⟩ (.clientDisconnected mac now)).1.serve = some next ∧
      next.life = ⟨.holding, some now⟩ ∧ next.conn = none := by
  simp [step, clientDisconnected, mine, dropSession, Lifecycle.on, streaming, carryOut]

theorem tidy_of_attributed (events : List ServeEvent) (attributed : Attributed events) :
    Tidy events := by
  intro front event back s split up
  have later (next : Serve)
      (stepped : (step (final watch begun front).sink event).1.serve = some next)
      (busy : next.life.phase ≠ .advertising) : next.sessionPeer =
        (connects (final watch begun front).sink.owner s event).or
          (final watch begun front).caster := by
    have owned := attributed.owner (front ++ [event]) back next (by simp [split])
    rw [watch_snoc] at owned
    have named := owned stepped busy
    simpa [taken, up] using named
  constructor
  · intro station found
    obtain ⟨next, stepped, streaming, kept⟩ :=
      connects_streams _ s event station _ (watch_turned front event s up).2 found
    have named := later next stepped (by simp [streaming])
    rw [found] at named
    rw [← kept, named]
    rfl
  · rintro mac rfl streaming
    have shape : (final watch begun front).sink =
        ⟨(final watch begun front).sink.owner, some s⟩ := by rw [← up]
    obtain ⟨next, stepped, life, peer⟩ :=
      joins_stream (final watch begun front).sink.owner s mac streaming
    rw [← shape] at stepped
    have named := later next stepped (by simp [life, streaming])
    have owned := attributed.owner front (.clientConnected mac :: back) s split up
      (by simp [streaming])
    rw [owned, ← peer, named]
    rfl

/-- The session belongs to the station that cast it exactly as long as the events are tidy. -/
theorem attributed_iff_tidy (events : List ServeEvent) : Attributed events ↔ Tidy events := by
  refine ⟨tidy_of_attributed events, ?_⟩
  intro tidy
  refine ⟨?_, ?_, ?_⟩
  · intro front back s split up busy
    exact owner_of_tidy events tidy front back s split up busy
  · intro front event back s mac split up streaming cause other
    have mine := owner_of_tidy events tidy front (event :: back) s split up (by simp [streaming])
    have shape : (final watch begun front).sink =
        ⟨(final watch begun front).sink.owner, some s⟩ := by rw [← up]
    rcases cause with rfl | ⟨now, rfl⟩
    · have joined := (tidy front _ back s split up).2 mac rfl streaming
      exact absurd (mine.symm.trans joined) other
    · obtain ⟨next, stepped, life, conn, peer⟩ :=
        others_leave (final watch begun front).sink.owner s mac now (mine ▸ other)
      rw [← shape] at stepped
      exact ⟨next, stepped, life ▸ streaming, conn, peer⟩
  · intro front mac now back s split up streaming caster
    have mine := owner_of_tidy events tidy front (.clientDisconnected mac now :: back) s split up
      (by simp [streaming])
    have shape : (final watch begun front).sink =
        ⟨(final watch begun front).sink.owner, some s⟩ := by rw [← up]
    rw [shape]
    exact owner_leaves _ s mac now streaming (mine.trans caster)

/-- One station casts, another joins the group and leaves it. -/
def passerBy : List ServeEvent :=
  [.groupUp 1234567 true, .clientConnected "02:00:00:00:00:0a",
    .accept "02:00:00:00:00:0a" true [] 1, .clientConnected "02:00:00:00:00:0b",
    .clientDisconnected "02:00:00:00:00:0b" 2]

theorem passer_by_unattributed : ¬ Attributed passerBy := by
  intro attributed
  have joined :=
    (tidy_of_attributed passerBy attributed (passerBy.take 3) _ (passerBy.drop 4) _ rfl rfl).2
  exact absurd (joined "02:00:00:00:00:0b" rfl rfl) (by decide)

end Castr.Miracast.Sink

import Castr.Lib.Since
import Castr.Miracast.Serve

/-! Whether the registrar still takes the PIN that is on the screen. -/

namespace Castr.Miracast.Sink

open Castr.Lib.Run
open Castr.Receiver (Owner)

def wpsWalkTime : Nat := 120 * 10 ^ 9

def pollInterval : Nat := 200 * 10 ^ 6

/-- What the viewer reads, and the last PIN the registrar was given and when. -/
structure Board where
  screen : Option String
  registrar : Option (String × Nat)
  deriving DecidableEq, Repr

def tell (time : Nat) (board : Board) : Told → Board
  | .out (.pin pin) => { board with screen := some pin }
  | .out .pinCleared => { board with screen := none }
  | .out _ => board
  | .wpsPin pin => { board with registrar := some (pin, time) }

structure Moment where
  time : Nat
  event : ServeEvent
  deriving DecidableEq, Repr

/-- The sink and its board at the clock's time, and when the last pass began. -/
structure Timed where
  sink : Sink
  board : Board
  clock : Nat
  passed : Nat
  deriving DecidableEq, Repr

def passes (sink : Sink) : ServeEvent → Bool
  | .groupUp _ _ => sink.serve.isNone
  | .idle _ _ _ => true
  | _ => false

def unlit : Timed := ⟨new, ⟨none, none⟩, 0, 0⟩

def follow (state : Timed) (moment : Moment) : Timed × Unit :=
  let done := step state.sink moment.event
  ({ sink := done.1
     board := done.2.foldl (tell moment.time) state.board
     clock := moment.time
     passed := if passes state.sink moment.event then moment.time else state.passed }, ())

def stamp : ServeEvent → Option Nat
  | .idle _ _ now => some now
  | .clientDisconnected _ now => some now
  | .accept _ _ _ now => some now
  | .sessionEnded _ now => some now
  | .tick now => some now
  | _ => none

def refuses : ServeEvent → Bool
  | .groupUp _ taken => !taken
  | .idle _ taken _ => !taken
  | .provisionRequest _ _ taken => !taken
  | .wpsFail _ taken => !taken
  | _ => false

/-- The clock goes forward, the loop never sleeps past its interval, and the supplicant accepts
every command. -/
structure OnTime (state : Timed) (moment : Moment) : Prop where
  forward : state.clock ≤ moment.time
  awake : state.sink.serve ≠ none → moment.time ≤ state.passed + pollInterval
  stamped : ∀ now, stamp moment.event = some now → now = moment.time
  accepted : refuses moment.event = false

def Punctual (moments : List Moment) : Prop :=
  ∀ front moment back, moments = front ++ moment :: back →
    OnTime (final follow unlit front) moment

/-- While the loop runs, a PIN on the screen is the one the registrar last opened its window for,
and the window is still open. -/
def Usable (moments : List Moment) : Prop :=
  ∀ front back, moments = front ++ back → (final follow unlit front).sink.serve ≠ none →
    ∀ now, (final follow unlit front).clock ≤ now →
      now ≤ (final follow unlit front).passed + pollInterval →
        ∀ pin, (final follow unlit front).board.screen = some pin →
          ∃ given, (final follow unlit front).board.registrar = some (pin, given) ∧
            now ≤ given + wpsWalkTime

def Alone (s : Serve) : Prop := s.conn = none ∧ s.clients = []

def Apart (owner : Owner) (s : Serve) (event : ServeEvent) : Prop :=
  match event with
  | .wpsFail _ _ => Alone s
  | .provisionRequest _ _ _ => s.pairing.pin = none → Alone s
  | .accept _ _ _ _ => connects owner s event ≠ none → s.pairing.pin = none
  | _ => True

def KeptApart (moments : List Moment) : Prop :=
  ∀ front moment back, moments = front ++ moment :: back →
    ∀ s, (final follow unlit front).sink.serve = some s →
      Apart (final follow unlit front).sink.owner s moment.event

/-- The PIN of a loop is on the board, with nobody here, and given not long before the last pass. -/
structure Renewed (s : Serve) (board : Board) (clock passed : Nat) : Prop where
  shown : board.screen = s.pairing.pin
  alone : s.pairing.pin ≠ none → Alone s
  given : ∀ pin, s.pairing.pin = some pin → ∃ time, board.registrar = some (pin, time) ∧
    passed ≤ time + wpsRearm ∧ ∀ last, s.wps.last = some last → last ≤ time
  past : ∀ last, s.wps.last = some last → last ≤ clock
  gone : passed ≤ clock

def Lasting (state : Timed) : Prop :=
  ∀ s, state.sink.serve = some s → Renewed s state.board state.clock state.passed

theorem applyAll_silent (owner : Owner) (held : Bool) (actions : List LifeAction) (time : Nat)
    (board : Board) :
    ((applyAll owner held actions).2.2.map Told.out).foldl (tell time) board = board := by
  induction actions generalizing owner held with
  | nil => rfl
  | cons action actions ih =>
      have first : ((applyLifecycle owner held action).2.2.map Told.out).foldl (tell time) board =
          board := by
        cases action <;> rfl
      simp only [applyAll, List.map_append, List.foldl_append, first, ih]

theorem carryOut_silent (owner : Owner) (s : Serve) (change : Lifecycle × List LifeAction)
    (time : Nat) (board : Board) :
    ((carryOut owner s change).2.2.map Told.out).foldl (tell time) board = board :=
  applyAll_silent owner s.held change.2 time board

theorem renewed_kept (s next : Serve) (board : Board) (clock passed time : Nat)
    (renewed : Renewed s board clock passed) (forward : clock ≤ time)
    (pairing : next.pairing = s.pairing) (wps : next.wps = s.wps)
    (alone : s.pairing.pin ≠ none → Alone next) : Renewed next board time passed := by
  refine ⟨pairing ▸ renewed.shown, pairing ▸ alone, ?_, ?_, renewed.gone.trans forward⟩
  · rw [pairing, wps]
    exact renewed.given
  · intro last noted
    exact (renewed.past last (wps ▸ noted)).trans forward

theorem renewed_minted (s : Serve) (pin : String) (time passed : Nat) (board : Board)
    (shown : s.pairing.pin = some pin) (alone : Alone s) (gone : passed ≤ time)
    (past : ∀ last, s.wps.last = some last → last ≤ time) :
    Renewed s ((applyPin (.pin pin)).foldl (tell time) board) time passed := by
  refine ⟨shown.symm, fun _ => alone, ?_, past, gone⟩
  intro found same
  cases shown.symm.trans same
  exact ⟨time, rfl, gone.trans (Nat.le_add_right _ _), past⟩

theorem renewed_down (s : Serve) (board : Board) (time passed : Nat)
    (down : s.pairing.pin = none) (clear : board.screen = none) (gone : passed ≤ time)
    (past : ∀ last, s.wps.last = some last → last ≤ time) : Renewed s board time passed := by
  refine ⟨clear.trans down.symm, fun up => absurd down up, ?_, past, gone⟩
  intro pin same
  cases down.symm.trans same

theorem groupUp_shows (pairing : Pairing) (entropy : UInt32) (down : pairing.pin = none) :
    pairing.groupUp entropy = (⟨some (pinFrom entropy)⟩, .pin (pinFrom entropy)) := by
  simp only [Pairing.groupUp, down]

theorem renewed_groupUp (owner : Owner) (entropy : UInt32) (s : Serve) (time : Nat) (board : Board)
    (up : (groupUp owner entropy true).1.serve = some s) :
    Renewed s ((groupUp owner entropy true).2.foldl (tell time) board) time time := by
  cases up
  exact renewed_minted _ (pinFrom entropy) time time board rfl ⟨rfl, rfl⟩ (Nat.le_refl time) nofun

theorem renewed_idle (owner : Owner) (s next : Serve) (entropy : UInt32) (board : Board)
    (clock passed time : Nat) (renewed : Renewed s board clock passed) (forward : clock ≤ time)
    (up : (idle owner s entropy true time).1.serve = some next) :
    Renewed next ((idle owner s entropy true time).2.foldl (tell time) board) time time := by
  have past : ∀ last, s.wps.last = some last → last ≤ time :=
    fun last noted => (renewed.past last noted).trans forward
  unfold idle at up ⊢
  split at up
  · rename_i alone
    rw [if_pos alone]
    cases shown : s.pairing.pin with
    | none =>
        simp only [shown, groupUp_shows s.pairing entropy shown, showPin] at up ⊢
        cases up
        exact renewed_minted _ (pinFrom entropy) time time board rfl alone (Nat.le_refl time)
          (by simp [WpsWindow.armed])
    | some pin =>
        obtain ⟨given, noted, recent, after⟩ := renewed.given pin shown
        simp only [shown] at up ⊢
        split at up
        · rename_i due
          rw [if_pos due]
          cases up
          have screen := renewed.shown.trans shown
          have again : (applyPin (.pin pin)).foldl (tell time) board =
              [Told.wpsPin pin].foldl (tell time) board := by
            simp [applyPin, tell, ← screen]
          rw [← again]
          exact renewed_minted _ pin time time board shown alone (Nat.le_refl time)
            (by simp [WpsWindow.armed])
        · rename_i early
          rw [if_neg early]
          cases up
          -- the window was opened less than the renewal interval ago
          have young : time ≤ given + wpsRearm := by
            cases armed : s.wps.last with
            | none => simp [WpsWindow.due, armed] at early
            | some last =>
                have soon : time - last < wpsRearm := by simpa [WpsWindow.due, armed] using early
                have opened := after last armed
                omega
          refine ⟨renewed.shown, renewed.alone, ?_, past, Nat.le_refl time⟩
          intro found same
          cases shown.symm.trans same
          exact ⟨given, noted, young, after⟩
  · rename_i busy
    rw [if_neg busy]
    cases up
    refine renewed_down s board time time ?_ ?_ (Nat.le_refl time) past
    · by_contra shown
      exact busy (renewed.alone shown)
    · rw [renewed.shown]
      by_contra shown
      exact busy (renewed.alone shown)

theorem renewed_showPin (owner : Owner) (s next : Serve) (pin : String) (board : Board)
    (clock passed time : Nat) (renewed : Renewed s board clock passed) (forward : clock ≤ time)
    (alone : Alone s)
    (up : (showPin owner s (⟨some pin⟩, .pin pin) true).1.serve = some next) :
    Renewed next ((showPin owner s (⟨some pin⟩, .pin pin) true).2.foldl (tell time) board) time
      passed := by
  cases up
  exact renewed_minted _ pin time passed board rfl alone (renewed.gone.trans forward)
    (fun last noted => (renewed.past last noted).trans forward)

theorem renewed_provision (owner : Owner) (s next : Serve) (entropy : UInt32) (board : Board)
    (clock passed time : Nat) (renewed : Renewed s board clock passed) (forward : clock ≤ time)
    (alone : s.pairing.pin = none → Alone s)
    (up : (showPin owner s (s.pairing.provisioning entropy) true).1.serve = some next) :
    Renewed next
      ((showPin owner s (s.pairing.provisioning entropy) true).2.foldl (tell time) board) time
      passed := by
  cases shown : s.pairing.pin with
  | none =>
      rw [Pairing.provisioning, groupUp_shows s.pairing entropy shown] at up ⊢
      exact renewed_showPin owner s next _ board clock passed time renewed forward (alone shown) up
  | some pin =>
      have still : s.pairing.provisioning entropy = (s.pairing, .nothing) := by
        simp only [Pairing.provisioning, Pairing.groupUp, shown]
      rw [still] at up ⊢
      cases up
      exact renewed_kept s _ board clock passed time renewed forward rfl rfl renewed.alone

theorem renewed_dropSession (owner : Owner) (s left next : Serve) (reason : String) (board : Board)
    (clock passed time now : Nat) (renewed : Renewed s board clock passed) (forward : clock ≤ time)
    (pairing : left.pairing = s.pairing) (wps : left.wps = s.wps)
    (clients : s.clients = [] → left.clients = [])
    (up : (dropSession owner left reason now).1.serve = some next) :
    Renewed next ((dropSession owner left reason now).2.foldl (tell time) board) time passed := by
  have silent : (dropSession owner left reason now).2.foldl (tell time) board = board := by
    simp only [dropSession, List.foldl_append, carryOut_silent]
    split <;> rfl
  rw [silent]
  cases up
  exact renewed_kept s _ board clock passed time renewed forward pairing wps
    (fun shown => ⟨rfl, clients (renewed.alone shown).2⟩)

theorem renewed_clientConnected (owner : Owner) (s next : Serve) (mac : String) (board : Board)
    (clock passed time : Nat) (renewed : Renewed s board clock passed) (forward : clock ≤ time)
    (up : (clientConnected owner s mac).1.serve = some next) :
    Renewed next ((clientConnected owner s mac).2.foldl (tell time) board) time passed := by
  have down : s.pairing.joined.1.pin = none := by
    unfold Pairing.joined
    split
    · rfl
    · assumption
  have clear : ((applyPin s.pairing.joined.2).foldl (tell time) board).screen = none := by
    cases shown : s.pairing.pin with
    | none => simpa [Pairing.joined, shown, applyPin] using renewed.shown
    | some pin => simp [Pairing.joined, shown, applyPin, tell]
  have past : ∀ last, s.wps.last = some last → last ≤ time :=
    fun last noted => (renewed.past last noted).trans forward
  unfold clientConnected at up ⊢
  dsimp only at up ⊢
  split at up
  · rename_i other
    rw [if_pos other, List.foldl_append, carryOut_silent]
    cases up
    exact renewed_down _ _ time passed down clear (renewed.gone.trans forward) past
  · rename_i mine
    rw [if_neg mine]
    cases up
    exact renewed_down _ _ time passed down clear (renewed.gone.trans forward) past

theorem renewed_connect (owner : Owner) (s next : Serve) (station : String) (board : Board)
    (clock passed time now : Nat) (renewed : Renewed s board clock passed) (forward : clock ≤ time)
    (down : s.pairing.pin = none) (up : (connect owner s station now).1.serve = some next) :
    Renewed next ((connect owner s station now).2.foldl (tell time) board) time passed := by
  have silent : (connect owner s station now).2.foldl (tell time) board = board :=
    carryOut_silent _ _ _ time board
  rw [silent]
  cases up
  exact renewed_kept s _ board clock passed time renewed forward rfl rfl
    (fun shown => absurd down shown)

theorem renewed_accept (owner : Owner) (s next : Serve) (station : String) (configured : Bool)
    (between : List CastrOp) (board : Board) (clock passed time now : Nat)
    (renewed : Renewed s board clock passed) (forward : clock ≤ time)
    (apart : Apart owner s (.accept station configured between now))
    (up : (accept owner s station configured between now).1.serve = some next) :
    Renewed next ((accept owner s station configured between now).2.foldl (tell time) board) time
      passed := by
  have still : Renewed s board time passed :=
    renewed_kept s s board clock passed time renewed forward rfl rfl renewed.alone
  unfold accept at up ⊢
  split at up
  · rename_i unusable
    rw [if_pos unusable]
    cases up
    exact still
  · rename_i usable
    rw [if_neg usable]
    rw [not_or, not_not, Bool.not_eq_false] at usable
    have down (taken : s.life.phase = .holding ∨ owner ≠ .castr) : s.pairing.pin = none :=
      apart (by simp [connects, usable, taken])
    split at up
    · rename_i holding
      rw [if_pos holding]
      exact renewed_connect owner s next station board clock passed time now renewed forward
        (down (Or.inl holding)) up
    · rename_i fresh
      rw [if_neg fresh]
      dsimp only at up ⊢
      split at up
      · rename_i granted
        rw [if_pos granted]
        have free : owner ≠ .castr := by
          rintro rfl
          cases granted
        exact renewed_connect _ s next station board clock passed time now renewed forward
          (down (Or.inr free)) up
      · rename_i refused
        rw [if_neg refused]
        cases up
        exact still

theorem renewed_tick (owner : Owner) (s next : Serve) (board : Board)
    (clock passed time now : Nat) (renewed : Renewed s board clock passed) (forward : clock ≤ time)
    (up : (tick owner s now).1.serve = some next) :
    Renewed next ((tick owner s now).2.foldl (tell time) board) time passed := by
  have silent : (tick owner s now).2.foldl (tell time) board = board :=
    carryOut_silent _ _ _ time board
  rw [silent]
  have same : next.pairing = s.pairing ∧ next.wps = s.wps ∧ next.conn = s.conn ∧
      next.clients = s.clients := by
    unfold tick at up
    dsimp only at up
    split at up
    · cases up
      exact ⟨rfl, rfl, rfl, rfl⟩
    · cases up
      exact ⟨rfl, rfl, rfl, rfl⟩
  obtain ⟨pairing, wps, conn, clients⟩ := same
  exact renewed_kept s next board clock passed time renewed forward pairing wps
    (fun shown => ⟨conn ▸ (renewed.alone shown).1, clients ▸ (renewed.alone shown).2⟩)

/-- One arm of the loop, over a PIN that is good so far. -/
theorem renewed_step (owner : Owner) (s next : Serve) (event : ServeEvent) (board : Board)
    (clock passed time : Nat) (renewed : Renewed s board clock passed) (forward : clock ≤ time)
    (stamped : ∀ now, stamp event = some now → now = time) (accepted : refuses event = false)
    (apart : Apart owner s event) (up : (step ⟨owner, some s⟩ event).1.serve = some next) :
    Renewed next ((step ⟨owner, some s⟩ event).2.foldl (tell time) board) time
      (if passes ⟨owner, some s⟩ event then time else passed) := by
  have still : Renewed s board time passed :=
    renewed_kept s s board clock passed time renewed forward rfl rfl renewed.alone
  cases event with
  | castr op =>
      cases up
      exact still
  | groupUp entropy taken =>
      cases up
      exact still
  | stop => cases up
  | idle entropy taken now =>
      obtain rfl := stamped now rfl
      obtain rfl : taken = true := by simpa [refuses] using accepted
      exact renewed_idle owner s next entropy board clock passed now renewed forward up
  | provisionRequest peer entropy taken =>
      obtain rfl : taken = true := by simpa [refuses] using accepted
      exact renewed_provision owner s next entropy board clock passed time renewed forward apart up
  | wpsFail entropy taken =>
      obtain rfl : taken = true := by simpa [refuses] using accepted
      exact renewed_showPin owner s next _ board clock passed time renewed forward apart up
  | clientConnected mac =>
      exact renewed_clientConnected owner s next mac board clock passed time renewed forward up
  | clientDisconnected mac now =>
      simp only [step, clientDisconnected] at up ⊢
      split at up
      · rename_i mine
        rw [if_pos mine]
        exact renewed_dropSession owner s _ next _ board clock passed time now renewed forward rfl
          rfl (fun empty => by simp [empty]) up
      · rename_i other
        rw [if_neg other]
        cases up
        exact renewed_kept s _ board clock passed time renewed forward rfl rfl
          (fun shown => ⟨(renewed.alone shown).1, by simp [(renewed.alone shown).2]⟩)
  | groupRemoved => cases up
  | accept station configured between now =>
      exact renewed_accept owner s next station configured between board clock passed time now
        renewed forward apart up
  | sessionEnded reason now =>
      simp only [step, sessionEnded] at up ⊢
      split at up
      · rename_i closed
        rw [if_pos closed]
        cases up
        exact still
      · rename_i on
        rw [if_neg on]
        exact renewed_dropSession owner s s next reason board clock passed time now renewed forward
          rfl rfl id up
  | tick now => exact renewed_tick owner s next board clock passed time now renewed forward up

theorem lasting_follow (state : Timed) (moment : Moment) (lasting : Lasting state)
    (onTime : OnTime state moment)
    (apart : ∀ s, state.sink.serve = some s → Apart state.sink.owner s moment.event) :
    Lasting (follow state moment).1 := by
  intro next up
  obtain ⟨⟨owner, serve⟩, board, clock, passed⟩ := state
  cases serve with
  | some s =>
      exact renewed_step owner s next moment.event board clock passed moment.time (lasting s rfl)
        onTime.forward onTime.stamped onTime.accepted (apart s rfl) up
  | none =>
      obtain ⟨time, event⟩ := moment
      cases event with
      | groupUp entropy taken =>
          obtain rfl : taken = true := by simpa [refuses] using onTime.accepted
          exact renewed_groupUp owner entropy next time board up
      | _ => cases up

theorem lasting_run (moments : List Moment) (punctual : Punctual moments)
    (apart : KeptApart moments) (front back : List Moment) (split : moments = front ++ back) :
    Lasting (final follow unlit front) := by
  apply prefix_induction follow unlit moments (fun _ state => Lasting state) ?_ ?_ front back split
  · intro s up
    cases up
  · intro front moment back split lasting
    exact lasting_follow _ moment lasting (punctual front moment back split)
      (apart front moment back split)

/-- The PIN on the screen can be used as long as none goes up while somebody is here. -/
theorem pin_usable (moments : List Moment) (punctual : Punctual moments)
    (apart : KeptApart moments) : Usable moments := by
  intro front back split up now after awake pin shown
  obtain ⟨s, running⟩ := Option.ne_none_iff_exists'.mp up
  have renewed := lasting_run moments punctual apart front back split s running
  obtain ⟨given, noted, recent, _⟩ := renewed.given pin (renewed.shown.symm.trans shown)
  refine ⟨given, noted, ?_⟩
  have inside : wpsRearm + pollInterval ≤ wpsWalkTime := by decide
  calc
    now ≤ (final follow unlit front).passed + pollInterval := awake
    _ ≤ given + wpsRearm + pollInterval := Nat.add_le_add_right recent _
    _ ≤ given + wpsWalkTime := by omega

theorem punctual_snoc (front : List Moment) (moment : Moment) (punctual : Punctual front)
    (onTime : OnTime (final follow unlit front) moment) : Punctual (front ++ [moment]) :=
  Lib.Since.each_snoc punctual onTime

theorem apart_snoc (front : List Moment) (moment : Moment) (apart : KeptApart front)
    (next : ∀ s, (final follow unlit front).sink.serve = some s →
      Apart (final follow unlit front).sink.owner s moment.event) :
    KeptApart (front ++ [moment]) :=
  Lib.Since.each_snoc apart next

/-- A mistyped PIN is replaced while nobody is here, and the next one lets a station in. -/
theorem pin_usable_retyped : Usable [⟨0, .groupUp 1 true⟩, ⟨5, .wpsFail 2 true⟩,
    ⟨pollInterval, .idle 3 true pollInterval⟩,
      ⟨pollInterval, .clientConnected "02:00:00:00:00:0a"⟩] := by
  apply pin_usable
  · refine punctual_snoc [_, _, _] _
      (punctual_snoc [_, _] _ (punctual_snoc [_] _ (punctual_snoc [] _
      (by simp [Punctual]) ?_) ?_) ?_) ?_
    · exact ⟨Nat.le_refl 0, fun up => absurd rfl up, nofun, rfl⟩
    · exact ⟨Nat.zero_le 5, fun _ => by decide, nofun, rfl⟩
    · exact ⟨by decide, fun _ => by decide, fun now same => (Option.some.inj same).symm, rfl⟩
    · exact ⟨Nat.le_refl _, fun _ => by decide, nofun, rfl⟩
  · refine apart_snoc [_, _, _] _ (apart_snoc [_, _] _ (apart_snoc [_] _ (apart_snoc [] _
      (by simp [KeptApart]) ?_) ?_) ?_) ?_
    · exact fun s up => trivial
    · intro s up
      cases up
      exact ⟨rfl, rfl⟩
    · exact fun s up => trivial
    · exact fun s up => trivial

/-- Another PIN is mistyped while a station is in the group. -/
def mistyped : List Moment :=
  [⟨0, .groupUp 1 true⟩, ⟨0, .clientConnected "02:00:00:00:00:0a"⟩, ⟨0, .wpsFail 2 true⟩]

/-- Passes over the loop with nothing to do but the check for an idle sink. -/
def passing (n : Nat) : List Moment :=
  (List.range n).map (fun k =>
    ⟨(k + 1) * pollInterval, .idle 3 true ((k + 1) * pollInterval)⟩)

theorem passing_succ (n : Nat) : passing (n + 1) =
    passing n ++ [⟨(n + 1) * pollInterval, .idle 3 true ((n + 1) * pollInterval)⟩] := by
  simp only [passing, List.range_succ, List.map_append, List.map_cons, List.map_nil]

theorem passing_untold (n : Nat) : final follow unlit (mistyped ++ passing n) =
    { final follow unlit mistyped with clock := n * pollInterval, passed := n * pollInterval } := by
  induction n with
  | zero =>
      rw [Nat.zero_mul]
      rfl
  | succ n ih =>
      rw [passing_succ, ← List.append_assoc, final_snoc, ih]
      rfl

theorem passing_punctual (n : Nat) : Punctual (mistyped ++ passing n) := by
  induction n with
  | zero =>
      refine punctual_snoc [_, _] _ (punctual_snoc [_] _ (punctual_snoc [] _
        (by simp [Punctual]) ?_) ?_) ?_
      · exact ⟨Nat.le_refl 0, fun up => absurd rfl up, nofun, rfl⟩
      · exact ⟨Nat.le_refl 0, fun _ => Nat.zero_le _, nofun, rfl⟩
      · exact ⟨Nat.le_refl 0, fun _ => Nat.zero_le _, nofun, rfl⟩
  | succ n ih =>
      rw [passing_succ, ← List.append_assoc]
      apply punctual_snoc _ _ ih
      rw [passing_untold]
      have later : (n + 1) * pollInterval = n * pollInterval + pollInterval := Nat.succ_mul n _
      refine ⟨?_, fun _ => later.le, fun now same => (Option.some.inj same).symm, rfl⟩
      rw [later]
      exact Nat.le_add_right _ _

/-- Two minutes later the digits are on the screen, and the registrar takes no enrolment. -/
theorem pin_lapsed : Punctual (mistyped ++ passing 601) ∧ ¬ Usable (mistyped ++ passing 601) := by
  refine ⟨passing_punctual 601, ?_⟩
  intro usable
  have held := usable (mistyped ++ passing 601) [] (List.append_nil _).symm
  rw [passing_untold] at held
  obtain ⟨given, noted, inside⟩ :=
    held nofun (601 * pollInterval) (Nat.le_refl _) (Nat.le_add_right _ _) (pinFrom 2) rfl
  cases noted
  exact absurd inside (by decide)

end Castr.Miracast.Sink

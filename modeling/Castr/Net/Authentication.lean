import Castr.Net.Pairing
import Mathlib.Logic.Relation

/-! Any number of pairings at once, over a network that an attacker controls: a device that has
paired has the other's fingerprint from a device with the same PIN. -/

namespace Castr.Net.Pairing

open Castr.Proto

variable {Rand State Key : Type}

structure Sender (Rand State Key : Type) where
  party : Party Rand
  phase : SenderPhase State Key

structure Receiver (Rand Key : Type) where
  party : Party Rand
  phase : ReceiverPhase Key

/-- A proof that a device has sent, in its role and under its key. -/
structure Sent (Rand Key : Type) where
  role : Role
  party : Party Rand
  key : Key

def Sent.bytes (sent : Sent Rand Key) : Bytes := proven sent.role sent.party.own

structure Network (Rand State Key : Type) where
  senders : List (Sender Rand State Key)
  receivers : List (Receiver Rand Key)
  proofs : List (Sent Rand Key)

/-- What happens: a side starts, a message of the attacker's choice arrives at one, or its link
fails. -/
inductive Event (Rand : Type) where
  | startSender (party : Party Rand)
  | startReceiver (party : Party Rand)
  | toSender (i : Nat) (message : ControlMessage)
  | toReceiver (i : Nat) (message : ControlMessage)
  | senderLost (i : Nat)
  | receiverLost (i : Nat)

section System

variable (lib : Primitives Rand State Key)

def sentProofs (role : Role) (party : Party Rand) (key : Option Key)
    (messages : List ControlMessage) : List (Sent Rand Key) :=
  messages.filterMap (fun message =>
    match message, key with
    | .pairProof _, some key => some ⟨role, party, key⟩
    | _, _ => none)

def Network.toSender (net : Network Rand State Key) (i : Nat) (message : ControlMessage) :
    Network Rand State Key :=
  match net.senders[i]? with
  | none => net
  | some s =>
      let (phase, out) := senderRecv lib s.party s.phase message
      { net with
        senders := net.senders.set i ⟨s.party, phase⟩
        proofs := net.proofs ++ sentProofs .sender s.party phase.key out }

def Network.toReceiver (net : Network Rand State Key) (i : Nat) (message : ControlMessage) :
    Network Rand State Key :=
  match net.receivers[i]? with
  | none => net
  | some r =>
      let (phase, out) := receiverRecv lib r.party r.phase message
      { net with
        receivers := net.receivers.set i ⟨r.party, phase⟩
        proofs := net.proofs ++ sentProofs .receiver r.party phase.key out }

def Network.loseSender (net : Network Rand State Key) (i : Nat) : Network Rand State Key :=
  match net.senders[i]? with
  | none => net
  | some s => { net with senders := net.senders.set i ⟨s.party, .failed⟩ }

def Network.loseReceiver (net : Network Rand State Key) (i : Nat) : Network Rand State Key :=
  match net.receivers[i]? with
  | none => net
  | some r => { net with receivers := net.receivers.set i ⟨r.party, .failed⟩ }

def Network.step (net : Network Rand State Key) : Event Rand → Network Rand State Key
  | .startSender party =>
      { net with senders := net.senders ++ [⟨party, .start (party.startA lib).1⟩] }
  | .startReceiver party => { net with receivers := net.receivers ++ [⟨party, .start⟩] }
  | .toSender i message => net.toSender lib i message
  | .toReceiver i message => net.toReceiver lib i message
  | .senderLost i => net.loseSender i
  | .receiverLost i => net.loseReceiver i

/-- A hash was sent under a key, unless the attacker knows the PIN. -/
def Network.Backed (knows : Bytes → Prop) (net : Network Rand State Key) (pin : Bytes) (key : Key)
    (bytes : Bytes) : Prop :=
  knows pin ∨ ∃ sent ∈ net.proofs, sent.key = key ∧ sent.bytes = bytes

def Network.Unforged (knows : Bytes → Prop) (net : Network Rand State Key) (pin : Bytes)
    (key : Key) (bytes : Bytes) (got : Vector UInt8 32) : Prop :=
  lib.hmac key bytes = got → net.Backed knows pin key bytes

/-- What the attacker can do: anything, but for randomness that repeats a sender's message and
forged hashes. -/
def Network.Allowed (knows : Bytes → Prop) (net : Network Rand State Key) : Event Rand → Prop
  | .startSender party => ∀ s ∈ net.senders, (s.party.startA lib).2 ≠ (party.startA lib).2
  | .toSender i (.pairProof got) => ∀ s key, net.senders[i]? = some s → s.phase.key = some key →
      net.Unforged lib knows s.party.pin key (proven .receiver s.party.peer) got
  | .toReceiver i (.pairProof got) => ∀ r key, net.receivers[i]? = some r →
      r.phase.key = some key →
        net.Unforged lib knows r.party.pin key (proven .sender r.party.peer) got
  | _ => True

def Move (knows : Bytes → Prop) (net next : Network Rand State Key) : Prop :=
  ∃ event, net.Allowed lib knows event ∧ next = net.step lib event

def Run (knows : Bytes → Prop) (net next : Network Rand State Key) : Prop :=
  Relation.ReflTransGen (Move lib knows) net next

def Reachable (knows : Bytes → Prop) (net : Network Rand State Key) : Prop :=
  Run lib knows ⟨[], [], []⟩ net

/-- Both ends of a key exchange have the same key only with the same password and each other's
messages. -/
def Agrees : Prop :=
  ∀ (a b : Party Rand) (m n : Bytes) (key : Key), lib.finish (a.startA lib).1 m = some key →
    lib.finish (b.startB lib).1 n = some key →
      a.pin = b.pin ∧ m = (b.startB lib).2 ∧ n = (a.startA lib).2

end System

section Tags

theorem tag_length (role : Role) (fp : Fingerprint) :
    (proven role fp).length = role.tag.length + 32 := by
  rw [proven, List.length_append, Vector.length_toList]

theorem proven_inj {role other : Role} {fp fp' : Fingerprint}
    (same : proven role fp = proven other fp') : role = other ∧ fp = fp' := by
  have lengths := congrArg List.length same
  rw [tag_length, tag_length] at lengths
  have roles : role = other := by
    cases role <;> cases other <;> first | rfl | exact absurd lengths (by decide)
  subst roles
  exact ⟨rfl, Vector.toList_inj.mp (List.append_cancel_left same)⟩

end Tags

section Sides

variable (lib : Primitives Rand State Key) (party : Party Rand)

inductive SenderTurn : SenderPhase State Key → ControlMessage → SenderPhase State Key →
    List ControlMessage → Prop
  | derived {state : State} {m : Bytes} {key : Key} (finished : lib.finish state m = some key) :
      SenderTurn (.start state) (.pairResp m) (.proof key)
        [.pairProof (proof lib key .sender party.own)]
  | verified (key : Key) :
      SenderTurn (.proof key) (.pairProof (proof lib key .receiver party.peer)) (.ok key) [.pairOk]
  | paired (key : Key) : SenderTurn (.ok key) .pairOk (.paired key) []
  | returned (key : Key) (message : ControlMessage) :
      SenderTurn (.paired key) message (.paired key) []
  | failed (phase : SenderPhase State Key) (message : ControlMessage) {out : List ControlMessage}
      (silent : ∀ got, .pairProof got ∉ out) : SenderTurn phase message .failed out

theorem senderRecv_turn (phase : SenderPhase State Key) (message : ControlMessage) :
    SenderTurn lib party phase message (senderRecv lib party phase message).1
      (senderRecv lib party phase message).2 := by
  fun_cases senderRecv lib party phase message with
  | case1 state m finished => exact .failed _ _ (by simp)
  | case2 state m key finished => exact .derived finished
  | case5 key got accepted =>
      have same := of_decide_eq_true accepted
      subst same
      exact .verified key
  | case9 key => exact .paired key
  | case11 key => exact .returned key _
  | _ => exact .failed _ _ (by simp [fail])

inductive ReceiverTurn : ReceiverPhase Key → ControlMessage → ReceiverPhase Key →
    List ControlMessage → Prop
  | derived {m : Bytes} {key : Key} (finished : lib.finish (party.startB lib).1 m = some key) :
      ReceiverTurn .start (.pairInit m) (.proof key) [.pairResp (party.startB lib).2]
  | verified (key : Key) :
      ReceiverTurn (.proof key) (.pairProof (proof lib key .sender party.peer)) (.ok key)
        [.pairProof (proof lib key .receiver party.own)]
  | paired (key : Key) : ReceiverTurn (.ok key) .pairOk (.paired key) [.pairOk]
  | returned (key : Key) (message : ControlMessage) :
      ReceiverTurn (.paired key) message (.paired key) []
  | failed (phase : ReceiverPhase Key) (message : ControlMessage) {out : List ControlMessage}
      (silent : ∀ got, .pairProof got ∉ out) : ReceiverTurn phase message .failed out

theorem ReceiverTurn.ok_of_proof {lib : Primitives Rand State Key} {party : Party Rand}
    {phase next : ReceiverPhase Key} {message : ControlMessage} {out : List ControlMessage}
    (turn : ReceiverTurn lib party phase message next out) (got : Vector UInt8 32)
    (sends : .pairProof got ∈ out) : ∃ key, next = .ok key := by
  cases turn with
  | verified key => exact ⟨key, rfl⟩
  | derived finished => exact absurd sends (by simp)
  | paired key => exact absurd sends (by simp)
  | returned key message => exact absurd sends (by simp)
  | failed before message silent => exact absurd sends (silent got)

theorem receiverRecv_turn (phase : ReceiverPhase Key) (message : ControlMessage) :
    ReceiverTurn lib party phase message (receiverRecv lib party phase message).1
      (receiverRecv lib party phase message).2 := by
  fun_cases receiverRecv lib party phase message with
  | case1 m finished => exact .failed _ _ (by simp)
  | case2 m key finished => exact .derived finished
  | case4 key got accepted =>
      have same := of_decide_eq_true accepted
      subst same
      exact .verified key
  | case8 key => exact .paired key
  | case10 key => exact .returned key _
  | _ => exact .failed _ _ (by simp [fail])

end Sides

section Invariant

variable (lib : Primitives Rand State Key) (knows : Bytes → Prop)

/-- What is known of a sender: where its key is from, and whose proof it has accepted. -/
structure SenderKnown (net : Network Rand State Key) (s : Sender Rand State Key) : Prop where
  started : ∀ state, s.phase = .start state → state = (s.party.startA lib).1
  key : ∀ key, s.phase.key = some key → ∃ m, lib.finish (s.party.startA lib).1 m = some key
  verified : ∀ key, s.phase.verified = some key →
    net.Backed knows s.party.pin key (proven .receiver s.party.peer)

structure ReceiverKnown (net : Network Rand State Key) (r : Receiver Rand Key) : Prop where
  key : ∀ key, r.phase.key = some key → ∃ m, lib.finish (r.party.startB lib).1 m = some key
  verified : ∀ key, r.phase.verified = some key →
    net.Backed knows r.party.pin key (proven .sender r.party.peer)

/-- What is known of a proof: a sender's is from one that has started, and a receiver's is from one
that has accepted a sender's. -/
structure SentKnown (net : Network Rand State Key) (sent : Sent Rand Key) : Prop where
  sender : sent.role = .sender → sent.party ∈ net.senders.map Sender.party ∧
    ∃ m, lib.finish (sent.party.startA lib).1 m = some sent.key
  receiver : sent.role = .receiver → sent.party ∈ net.receivers.map Receiver.party ∧
    net.Backed knows sent.party.pin sent.key (proven .sender sent.party.peer) ∧
      ∃ m, lib.finish (sent.party.startB lib).1 m = some sent.key

structure Inv (net : Network Rand State Key) : Prop where
  fresh : ∀ a ∈ net.senders.map Sender.party, ∀ b ∈ net.senders.map Sender.party,
    (a.startA lib).2 = (b.startA lib).2 → a = b
  senders : ∀ s ∈ net.senders, SenderKnown lib knows net s
  receivers : ∀ r ∈ net.receivers, ReceiverKnown lib knows net r
  proofs : ∀ sent ∈ net.proofs, SentKnown lib knows net sent

structure Grows (net next : Network Rand State Key) : Prop where
  senders : ∀ party ∈ net.senders.map Sender.party, party ∈ next.senders.map Sender.party
  receivers : ∀ party ∈ net.receivers.map Receiver.party, party ∈ next.receivers.map Receiver.party
  proofs : ∀ sent ∈ net.proofs, sent ∈ next.proofs

variable {lib knows} {net next : Network Rand State Key}

theorem Network.Backed.grows {pin : Bytes} {key : Key} {bytes : Bytes}
    (backed : net.Backed knows pin key bytes) (grows : Grows net next) :
    next.Backed knows pin key bytes := by
  rcases backed with known | ⟨sent, member, same⟩
  · exact .inl known
  · exact .inr ⟨sent, grows.proofs sent member, same⟩

theorem SenderKnown.grows {s : Sender Rand State Key} (known : SenderKnown lib knows net s)
    (grows : Grows net next) : SenderKnown lib knows next s :=
  ⟨known.started, known.key, fun key has => (known.verified key has).grows grows⟩

theorem ReceiverKnown.grows {r : Receiver Rand Key} (known : ReceiverKnown lib knows net r)
    (grows : Grows net next) : ReceiverKnown lib knows next r :=
  ⟨known.key, fun key has => (known.verified key has).grows grows⟩

theorem SentKnown.grows {sent : Sent Rand Key} (known : SentKnown lib knows net sent)
    (grows : Grows net next) : SentKnown lib knows next sent := by
  constructor
  · intro role
    obtain ⟨party, key⟩ := known.sender role
    exact ⟨grows.senders _ party, key⟩
  · intro role
    obtain ⟨party, backed, key⟩ := known.receiver role
    exact ⟨grows.receivers _ party, backed.grows grows, key⟩

theorem mem_sentProofs {role : Role} {party : Party Rand} {has : Option Key}
    {messages : List ControlMessage} {sent : Sent Rand Key}
    (member : sent ∈ sentProofs role party has messages) :
    (∃ got, .pairProof got ∈ messages) ∧ sent.role = role ∧ sent.party = party ∧
      has = some sent.key := by
  obtain ⟨message, inside, same⟩ := List.mem_filterMap.mp member
  split at same
  · cases same
    exact ⟨⟨_, inside⟩, rfl, rfl, rfl⟩
  · exact nomatch same

theorem map_set_same {α β : Type} {f : α → β} {a b : α} {i : Nat} {l : List α}
    (here : l[i]? = some a) (same : f b = f a) : (l.set i b).map f = l.map f := by
  obtain ⟨inside, rfl⟩ := List.getElem?_eq_some_iff.mp here
  rw [List.map_set, same, ← List.getElem_map f]
  · exact List.set_getElem_self _
  · rwa [List.length_map]

theorem mem_map_set {α β : Type} {f : α → β} {a b : α} {c : β} {i : Nat} {l : List α}
    (here : l[i]? = some a) (member : c ∈ l.map f) (same : f b = f a) : c ∈ (l.set i b).map f := by
  rwa [map_set_same here same]

theorem step_grows (lib : Primitives Rand State Key) (net : Network Rand State Key)
    (event : Event Rand) :
    Grows net (net.step lib event) := by
  cases event with
  | startSender party =>
      refine ⟨fun other member => ?_, fun other member => member, fun sent member => member⟩
      exact List.map_append ▸ List.mem_append_left _ member
  | startReceiver party =>
      refine ⟨fun other member => member, fun other member => ?_, fun sent member => member⟩
      exact List.map_append ▸ List.mem_append_left _ member
  | toSender i message =>
      change Grows net (net.toSender lib i message)
      unfold Network.toSender
      cases here : net.senders[i]? with
      | none => exact ⟨fun _ => id, fun _ => id, fun _ => id⟩
      | some s =>
          refine ⟨fun party member => ?_, fun _ => id, fun sent => List.mem_append_left _⟩
          exact mem_map_set here member (by rfl)
  | toReceiver i message =>
      change Grows net (net.toReceiver lib i message)
      unfold Network.toReceiver
      cases here : net.receivers[i]? with
      | none => exact ⟨fun _ => id, fun _ => id, fun _ => id⟩
      | some r =>
          refine ⟨fun _ => id, fun party member => ?_, fun sent => List.mem_append_left _⟩
          exact mem_map_set here member (by rfl)
  | senderLost i =>
      change Grows net (net.loseSender i)
      unfold Network.loseSender
      cases here : net.senders[i]? with
      | none => exact ⟨fun _ => id, fun _ => id, fun _ => id⟩
      | some s =>
          refine ⟨fun party member => ?_, fun _ => id, fun _ => id⟩
          exact mem_map_set here member (by rfl)
  | receiverLost i =>
      change Grows net (net.loseReceiver i)
      unfold Network.loseReceiver
      cases here : net.receivers[i]? with
      | none => exact ⟨fun _ => id, fun _ => id, fun _ => id⟩
      | some r =>
          refine ⟨fun _ => id, fun party member => ?_, fun _ => id⟩
          exact mem_map_set here member (by rfl)

theorem startSender_inv (inv : Inv lib knows net) {party : Party Rand}
    (fresh : ∀ s ∈ net.senders, (s.party.startA lib).2 ≠ (party.startA lib).2) :
    Inv lib knows (net.step lib (.startSender party)) := by
  have grows := step_grows lib net (.startSender party)
  refine ⟨?_, ?_, ?_, ?_⟩
  · intro a first b second same
    simp only [Network.step, List.map_append, List.mem_append, List.map_cons, List.map_nil,
      List.mem_singleton] at first second
    rcases first with first | rfl <;> rcases second with second | rfl
    · exact inv.fresh a first b second same
    · obtain ⟨s, member, rfl⟩ := List.mem_map.mp first
      exact absurd same (fresh s member)
    · obtain ⟨s, member, rfl⟩ := List.mem_map.mp second
      exact absurd same.symm (fresh s member)
    · rfl
  · intro s member
    rcases List.mem_append.mp member with early | late
    · exact (inv.senders s early).grows grows
    · rw [List.mem_singleton.mp late]
      refine ⟨fun state same => ?_, fun key has => (nomatch has), fun key has => (nomatch has)⟩
      cases same
      rfl
  · exact fun r member => (inv.receivers r member).grows grows
  · exact fun sent member => (inv.proofs sent member).grows grows

theorem startReceiver_inv (inv : Inv lib knows net) (party : Party Rand) :
    Inv lib knows (net.step lib (.startReceiver party)) := by
  have grows := step_grows lib net (.startReceiver party)
  refine ⟨inv.fresh, fun s member => (inv.senders s member).grows grows, ?_,
    fun sent member => (inv.proofs sent member).grows grows⟩
  intro r member
  rcases List.mem_append.mp member with early | late
  · exact (inv.receivers r early).grows grows
  · rw [List.mem_singleton.mp late]
    exact ⟨fun key has => (nomatch has), fun key has => (nomatch has)⟩

theorem senderTurn_known {s : Sender Rand State Key} {message : ControlMessage}
    {phase : SenderPhase State Key} {out : List ControlMessage}
    (known : SenderKnown lib knows net s) (turn : SenderTurn lib s.party s.phase message phase out)
    (allowed : ∀ key, s.phase.key = some key →
      message = .pairProof (proof lib key .receiver s.party.peer) →
        net.Backed knows s.party.pin key (proven .receiver s.party.peer)) :
    SenderKnown lib knows net ⟨s.party, phase⟩ := by
  obtain ⟨party, before⟩ := s
  cases turn with
  | @derived state m key finished =>
      refine ⟨fun state same => (nomatch same), ?_, fun key has => (nomatch has)⟩
      intro other same
      cases same
      rw [known.started state rfl] at finished
      exact ⟨m, finished⟩
  | verified key =>
      refine ⟨fun state same => (nomatch same), fun other same => known.key other same, ?_⟩
      intro other same
      cases same
      exact allowed key rfl rfl
  | paired key =>
      exact ⟨fun state same => (nomatch same), fun other same => known.key other same,
        fun other same => known.verified other same⟩
  | returned key message => exact known
  | failed before message silent =>
      exact ⟨fun state same => (nomatch same), fun other same => (nomatch same),
        fun other same => (nomatch same)⟩

theorem receiverTurn_known {r : Receiver Rand Key} {message : ControlMessage}
    {phase : ReceiverPhase Key} {out : List ControlMessage}
    (known : ReceiverKnown lib knows net r)
    (turn : ReceiverTurn lib r.party r.phase message phase out)
    (allowed : ∀ key, r.phase.key = some key →
      message = .pairProof (proof lib key .sender r.party.peer) →
        net.Backed knows r.party.pin key (proven .sender r.party.peer)) :
    ReceiverKnown lib knows net ⟨r.party, phase⟩ := by
  obtain ⟨party, before⟩ := r
  cases turn with
  | @derived m key finished =>
      refine ⟨?_, fun key has => (nomatch has)⟩
      intro other same
      cases same
      exact ⟨m, finished⟩
  | verified key =>
      refine ⟨fun other same => known.key other same, ?_⟩
      intro other same
      cases same
      exact allowed key rfl rfl
  | paired key =>
      exact ⟨fun other same => known.key other same, fun other same => known.verified other same⟩
  | returned key message => exact known
  | failed before message silent =>
      exact ⟨fun other same => (nomatch same), fun other same => (nomatch same)⟩

theorem toSender_inv (inv : Inv lib knows net) {i : Nat} {message : ControlMessage}
    (allowed : net.Allowed lib knows (.toSender i message)) :
    Inv lib knows (net.step lib (.toSender i message)) := by
  have grows := step_grows lib net (.toSender i message)
  change Grows net (net.toSender lib i message) at grows
  change Inv lib knows (net.toSender lib i message)
  unfold Network.toSender at grows ⊢
  cases here : net.senders[i]? with
  | none => exact inv
  | some s =>
      have turn := senderRecv_turn lib s.party s.phase message
      have forged : ∀ key, s.phase.key = some key →
          message = .pairProof (proof lib key .receiver s.party.peer) →
            net.Backed knows s.party.pin key (proven .receiver s.party.peer) := by
        rintro key has rfl
        exact allowed s key here has rfl
      have known := senderTurn_known (inv.senders s (List.mem_of_getElem? here)) turn forged
      rw [here] at grows
      dsimp only at grows ⊢
      generalize (senderRecv lib s.party s.phase message).1 = phase at known grows ⊢
      generalize (senderRecv lib s.party s.phase message).2 = out at grows ⊢
      have parties := map_set_same (f := Sender.party) here (b := ⟨s.party, phase⟩) rfl
      refine ⟨?_, ?_, fun r member => (inv.receivers r member).grows grows, ?_⟩
      · exact parties.symm ▸ inv.fresh
      · intro t member
        rcases List.mem_or_eq_of_mem_set member with early | rfl
        · exact (inv.senders t early).grows grows
        · exact known.grows grows
      · intro sent member
        rcases List.mem_append.mp member with early | late
        · exact (inv.proofs sent early).grows grows
        · obtain ⟨_, role, party, has⟩ := mem_sentProofs late
          refine ⟨fun _ => ⟨?_, ?_⟩, fun other => nomatch role.symm.trans other⟩
          · rw [party]
            exact grows.senders _ (List.mem_map.mpr ⟨s, List.mem_of_getElem? here, rfl⟩)
          · rw [party]
            exact known.key _ has

theorem toReceiver_inv (inv : Inv lib knows net) {i : Nat} {message : ControlMessage}
    (allowed : net.Allowed lib knows (.toReceiver i message)) :
    Inv lib knows (net.step lib (.toReceiver i message)) := by
  have grows := step_grows lib net (.toReceiver i message)
  change Grows net (net.toReceiver lib i message) at grows
  change Inv lib knows (net.toReceiver lib i message)
  unfold Network.toReceiver at grows ⊢
  cases here : net.receivers[i]? with
  | none => exact inv
  | some r =>
      have turn := receiverRecv_turn lib r.party r.phase message
      have forged : ∀ key, r.phase.key = some key →
          message = .pairProof (proof lib key .sender r.party.peer) →
            net.Backed knows r.party.pin key (proven .sender r.party.peer) := by
        rintro key has rfl
        exact allowed r key here has rfl
      have known := receiverTurn_known (inv.receivers r (List.mem_of_getElem? here)) turn forged
      have sends := turn.ok_of_proof
      rw [here] at grows
      dsimp only at grows ⊢
      generalize (receiverRecv lib r.party r.phase message).1 = phase at known sends grows ⊢
      generalize (receiverRecv lib r.party r.phase message).2 = out at sends grows ⊢
      refine ⟨inv.fresh, fun s member => (inv.senders s member).grows grows, ?_, ?_⟩
      · intro t member
        rcases List.mem_or_eq_of_mem_set member with early | rfl
        · exact (inv.receivers t early).grows grows
        · exact known.grows grows
      · intro sent member
        rcases List.mem_append.mp member with early | late
        · exact (inv.proofs sent early).grows grows
        · obtain ⟨⟨got, inside⟩, role, party, has⟩ := mem_sentProofs late
          refine ⟨fun other => (nomatch role.symm.trans other), fun _ => ⟨?_, ?_, ?_⟩⟩
          · rw [party]
            exact grows.receivers _ (List.mem_map.mpr ⟨r, List.mem_of_getElem? here, rfl⟩)
          · rw [party]
            have accepted : phase.verified = some sent.key := by
              obtain ⟨key, rfl⟩ := sends got inside
              exact has
            exact (known.verified _ accepted).grows grows
          · rw [party]
            exact known.key _ has

theorem loseSender_inv (inv : Inv lib knows net) (i : Nat) :
    Inv lib knows (net.step lib (.senderLost i)) := by
  have grows := step_grows lib net (.senderLost i)
  change Grows net (net.loseSender i) at grows
  change Inv lib knows (net.loseSender i)
  unfold Network.loseSender at grows ⊢
  cases here : net.senders[i]? with
  | none => exact inv
  | some s =>
      rw [here] at grows
      have parties := map_set_same (f := Sender.party) here (b := ⟨s.party, .failed⟩) rfl
      refine ⟨parties.symm ▸ inv.fresh, ?_, fun r member => (inv.receivers r member).grows grows,
        fun sent member => (inv.proofs sent member).grows grows⟩
      intro t member
      rcases List.mem_or_eq_of_mem_set member with early | rfl
      · exact (inv.senders t early).grows grows
      · exact ⟨fun state same => (nomatch same), fun key same => (nomatch same),
          fun key same => (nomatch same)⟩

theorem loseReceiver_inv (inv : Inv lib knows net) (i : Nat) :
    Inv lib knows (net.step lib (.receiverLost i)) := by
  have grows := step_grows lib net (.receiverLost i)
  change Grows net (net.loseReceiver i) at grows
  change Inv lib knows (net.loseReceiver i)
  unfold Network.loseReceiver at grows ⊢
  cases here : net.receivers[i]? with
  | none => exact inv
  | some r =>
      rw [here] at grows
      refine ⟨inv.fresh, fun s member => (inv.senders s member).grows grows, ?_,
        fun sent member => (inv.proofs sent member).grows grows⟩
      intro t member
      rcases List.mem_or_eq_of_mem_set member with early | rfl
      · exact (inv.receivers t early).grows grows
      · exact ⟨fun key same => (nomatch same), fun key same => (nomatch same)⟩

theorem step_inv (inv : Inv lib knows net) {event : Event Rand}
    (allowed : net.Allowed lib knows event) : Inv lib knows (net.step lib event) := by
  cases event with
  | startSender party => exact startSender_inv inv allowed
  | startReceiver party => exact startReceiver_inv inv party
  | toSender i message => exact toSender_inv inv allowed
  | toReceiver i message => exact toReceiver_inv inv allowed
  | senderLost i => exact loseSender_inv inv i
  | receiverLost i => exact loseReceiver_inv inv i

theorem reachable_inv (reach : Reachable lib knows net) : Inv lib knows net := by
  induction reach with
  | refl =>
      exact ⟨fun a member => (nomatch member), fun s member => (nomatch member),
        fun r member => (nomatch member), fun sent member => (nomatch member)⟩
  | tail before move ih =>
      obtain ⟨event, allowed, rfl⟩ := move
      exact step_inv ih allowed

end Invariant

section Completeness

variable {lib : Primitives Rand State Key} {knows : Bytes → Prop} {a b : Party Rand} {key : Key}

/-- Two devices that get the same key, each with the other's fingerprint, pair when the network
leaves their messages alone. -/
theorem honest_pairs (finishedA : lib.finish (a.startA lib).1 (b.startB lib).2 = some key)
    (finishedB : lib.finish (b.startB lib).1 (a.startA lib).2 = some key) (seenA : a.peer = b.own)
    (seenB : b.peer = a.own) :
    Reachable lib knows
      ⟨[⟨a, .paired key⟩], [⟨b, .paired key⟩], [⟨.sender, a, key⟩, ⟨.receiver, b, key⟩]⟩ := by
  have started : Move lib knows ⟨[], [], []⟩ ⟨[⟨a, .start (a.startA lib).1⟩], [], []⟩ :=
    ⟨.startSender a, fun s member => (nomatch member), rfl⟩
  have joined : Move lib knows ⟨[⟨a, .start (a.startA lib).1⟩], [], []⟩
      ⟨[⟨a, .start (a.startA lib).1⟩], [⟨b, .start⟩], []⟩ := ⟨.startReceiver b, trivial, rfl⟩
  have asked : Move lib knows ⟨[⟨a, .start (a.startA lib).1⟩], [⟨b, .start⟩], []⟩
      ⟨[⟨a, .start (a.startA lib).1⟩], [⟨b, .proof key⟩], []⟩ := by
    refine ⟨.toReceiver 0 (.pairInit (a.startA lib).2), trivial, ?_⟩
    simp [Network.step, Network.toReceiver, receiverRecv, finishedB, sentProofs]
  have answered : Move lib knows ⟨[⟨a, .start (a.startA lib).1⟩], [⟨b, .proof key⟩], []⟩
      ⟨[⟨a, .proof key⟩], [⟨b, .proof key⟩], [⟨.sender, a, key⟩]⟩ := by
    refine ⟨.toSender 0 (.pairResp (b.startB lib).2), trivial, ?_⟩
    simp [Network.step, Network.toSender, senderRecv, finishedA, sentProofs, SenderPhase.key]
  have proved : Move lib knows ⟨[⟨a, .proof key⟩], [⟨b, .proof key⟩], [⟨.sender, a, key⟩]⟩
      ⟨[⟨a, .proof key⟩], [⟨b, .ok key⟩], [⟨.sender, a, key⟩, ⟨.receiver, b, key⟩]⟩ := by
    refine ⟨.toReceiver 0 (.pairProof (proof lib key .sender a.own)), ?_, ?_⟩
    · intro r other here has _
      cases here
      cases has
      exact .inr ⟨_, List.mem_cons_self, rfl, by rw [Sent.bytes, seenB]⟩
    · simp [Network.step, Network.toReceiver, receiverRecv, verify, proof, seenB, sentProofs,
        ReceiverPhase.key]
  have returned : Move lib knows
      ⟨[⟨a, .proof key⟩], [⟨b, .ok key⟩], [⟨.sender, a, key⟩, ⟨.receiver, b, key⟩]⟩
      ⟨[⟨a, .ok key⟩], [⟨b, .ok key⟩], [⟨.sender, a, key⟩, ⟨.receiver, b, key⟩]⟩ := by
    refine ⟨.toSender 0 (.pairProof (proof lib key .receiver b.own)), ?_, ?_⟩
    · intro s other here has _
      cases here
      cases has
      exact .inr ⟨_, List.mem_cons_of_mem _ List.mem_cons_self, rfl, by rw [Sent.bytes, seenA]⟩
    · simp [Network.step, Network.toSender, senderRecv, verify, proof, seenA, sentProofs]
  have agreed : Move lib knows
      ⟨[⟨a, .ok key⟩], [⟨b, .ok key⟩], [⟨.sender, a, key⟩, ⟨.receiver, b, key⟩]⟩
      ⟨[⟨a, .ok key⟩], [⟨b, .paired key⟩], [⟨.sender, a, key⟩, ⟨.receiver, b, key⟩]⟩ :=
    ⟨.toReceiver 0 .pairOk, trivial, rfl⟩
  have confirmed : Move lib knows
      ⟨[⟨a, .ok key⟩], [⟨b, .paired key⟩], [⟨.sender, a, key⟩, ⟨.receiver, b, key⟩]⟩
      ⟨[⟨a, .paired key⟩], [⟨b, .paired key⟩], [⟨.sender, a, key⟩, ⟨.receiver, b, key⟩]⟩ :=
    ⟨.toSender 0 .pairOk, trivial, rfl⟩
  exact (Relation.ReflTransGen.single started).tail joined |>.tail asked |>.tail answered
    |>.tail proved |>.tail returned |>.tail agreed |>.tail confirmed

end Completeness

section Example

/-- A key exchange whose messages are a side's letter and its randomness, and whose key is the
password with both messages; and a hash of what comes first of its key and its bytes. -/
def plain : Primitives UInt8 (Bytes × Role × Bytes) (Bytes × Bytes × Bytes) where
  startA := fun pin _ _ rand => ((pin, .sender, [0x41, rand]), [0x41, rand])
  startB := fun pin _ _ rand => ((pin, .receiver, [0x42, rand]), [0x42, rand])
  finish := fun (pin, role, own) message =>
    match role with
    | .sender => if message.head? = some 0x42 then some (pin, own, message) else none
    | .receiver => if message.head? = some 0x41 then some (pin, message, own) else none
  hmac := fun (pin, a, b) bytes => Vector.ofFn (fun i => (bytes ++ pin ++ a ++ b).getD i.val 0)
  debug := fun _ => ""

theorem plain_agrees : Agrees plain := by
  intro a b m n key finishedA finishedB
  simp only [plain, Party.startA, Party.startB, Option.ite_none_right_eq_some,
    Option.some.injEq] at finishedA finishedB
  obtain ⟨-, rfl⟩ := finishedA
  obtain ⟨-, same⟩ := finishedB
  obtain ⟨pin, messages⟩ := Prod.mk.inj same
  obtain ⟨first, second⟩ := Prod.mk.inj messages
  exact ⟨pin.symm, second.symm, first⟩

def phone : Party UInt8 := ⟨[0x31, 0x32], 5, .replicate 32 7, .replicate 32 9⟩

def television : Party UInt8 := ⟨[0x31, 0x32], 6, .replicate 32 9, .replicate 32 7⟩

def plainKey : Bytes × Bytes × Bytes := ([0x31, 0x32], [0x41, 5], [0x42, 6])

def home : Network UInt8 (Bytes × Role × Bytes) (Bytes × Bytes × Bytes) :=
  ⟨[⟨phone, .paired plainKey⟩], [⟨television, .paired plainKey⟩],
    [⟨.sender, phone, plainKey⟩, ⟨.receiver, television, plainKey⟩]⟩

theorem home_reachable : Reachable plain (fun _ => False) home :=
  honest_pairs (a := phone) (b := television) rfl rfl rfl rfl

end Example

section Authentication

variable {lib : Primitives Rand State Key} {knows : Bytes → Prop} {net : Network Rand State Key}

theorem Network.Backed.sent {pin : Bytes} {key : Key} {role : Role} {fp : Fingerprint}
    (backed : net.Backed knows pin key (proven role fp)) (secret : ¬ knows pin) :
    ∃ sent ∈ net.proofs, sent.role = role ∧ sent.key = key ∧ sent.party.own = fp := by
  rcases backed with known | ⟨sent, member, key, same⟩
  · exact absurd known secret
  · obtain ⟨role, fp⟩ := proven_inj same
    exact ⟨sent, member, role, key, fp⟩

theorem run_grows {next : Network Rand State Key} (run : Run lib knows net next) :
    Grows net next := by
  induction run with
  | refl => exact ⟨fun _ => id, fun _ => id, fun _ => id⟩
  | @tail net next before move ih =>
      obtain ⟨event, -, rfl⟩ := move
      have last := step_grows lib net event
      exact ⟨fun party member => last.senders party (ih.senders party member),
        fun party member => last.receivers party (ih.receivers party member),
        fun sent member => last.proofs sent (ih.proofs sent member)⟩

theorem step_sends {event : Event Rand} {sent : Sent Rand Key}
    (member : sent ∈ (net.step lib event).proofs) (role : sent.role = .receiver) :
    sent ∈ net.proofs ∨
      ∃ r ∈ (net.step lib event).receivers, r.party = sent.party ∧ r.phase = .ok sent.key := by
  cases event with
  | toSender i message =>
      change sent ∈ (net.toSender lib i message).proofs at member
      unfold Network.toSender at member
      split at member
      · exact .inl member
      · rcases List.mem_append.mp member with early | late
        · exact .inl early
        · obtain ⟨-, other, -⟩ := mem_sentProofs late
          exact nomatch role.symm.trans other
  | toReceiver i message =>
      change sent ∈ (net.toReceiver lib i message).proofs at member
      change _ ∨ ∃ r ∈ (net.toReceiver lib i message).receivers, _
      unfold Network.toReceiver at member ⊢
      cases here : net.receivers[i]? with
      | none => exact .inl (by simpa only [here] using member)
      | some r =>
          rw [here] at member
          rcases List.mem_append.mp member with early | late
          · exact .inl early
          · obtain ⟨⟨got, inside⟩, -, party, has⟩ := mem_sentProofs late
            have turn := receiverRecv_turn lib r.party r.phase message
            obtain ⟨key, phase⟩ := turn.ok_of_proof got inside
            have bound := (List.getElem?_eq_some_iff.mp here).choose
            refine .inr ⟨_, List.mem_set bound _, party.symm, ?_⟩
            rw [phase] at has ⊢
            exact congrArg ReceiverPhase.ok (Option.some.inj has)
  | _ =>
      refine .inl ?_
      simp only [Network.step, Network.loseSender, Network.loseReceiver] at member
      first | exact member | (split at member <;> exact member)

theorem reachable_sends (reach : Reachable lib knows net) {sent : Sent Rand Key}
    (member : sent ∈ net.proofs) (role : sent.role = .receiver) :
    ∃ earlier, Reachable lib knows earlier ∧ Run lib knows earlier net ∧
      ∃ r ∈ earlier.receivers, r.party = sent.party ∧ r.phase = .ok sent.key := by
  induction reach with
  | refl => exact nomatch member
  | tail before move ih =>
      obtain ⟨event, allowed, rfl⟩ := move
      rcases step_sends member role with early | now
      · obtain ⟨earlier, reached, run, held⟩ := ih early
        exact ⟨earlier, reached, run.tail ⟨event, allowed, rfl⟩, held⟩
      · exact ⟨_, before.tail ⟨event, allowed, rfl⟩, .refl, now⟩

/-- A sender with the party's PIN has proved the fingerprint that the party sees on its link. -/
def Network.SenderProved (net : Network Rand State Key) (party : Party Rand) (key : Key)
    (sender : Party Rand) : Prop :=
  sender ∈ net.senders.map Sender.party ∧ sender.pin = party.pin ∧ sender.own = party.peer ∧
    ∃ sent ∈ net.proofs, sent.role = .sender ∧ sent.party = sender ∧ sent.key = key

def Network.ReceiverProved (net : Network Rand State Key) (party : Party Rand) (key : Key)
    (receiver : Party Rand) : Prop :=
  receiver ∈ net.receivers.map Receiver.party ∧ receiver.pin = party.pin ∧
    receiver.own = party.peer ∧
      ∃ sent ∈ net.proofs, sent.role = .receiver ∧ sent.party = receiver ∧ sent.key = key

theorem Inv.sender_proved (agrees : Agrees lib) (inv : Inv lib knows net) {r : Receiver Rand Key}
    (here : r ∈ net.receivers) {key : Key} (accepted : r.phase.verified = some key)
    (has : r.phase.key = some key) (secret : ¬ knows r.party.pin) :
    ∃ sender, net.SenderProved r.party key sender ∧
      lib.finish (r.party.startB lib).1 (sender.startA lib).2 = some key := by
  have known := inv.receivers r here
  obtain ⟨sent, member, role, rfl, own⟩ := (known.verified key accepted).sent secret
  obtain ⟨started, m, finishedA⟩ := (inv.proofs sent member).sender role
  obtain ⟨n, finishedB⟩ := known.key sent.key has
  obtain ⟨pin, -, rfl⟩ := agrees sent.party r.party m n sent.key finishedA finishedB
  exact ⟨sent.party, ⟨started, pin, own, sent, member, role, rfl, rfl⟩, finishedB⟩

theorem receiver_proved (agrees : Agrees lib) (reach : Reachable lib knows net)
    {s : Sender Rand State Key} (here : s ∈ net.senders) {key : Key}
    (accepted : s.phase.verified = some key) (has : s.phase.key = some key)
    (secret : ¬ knows s.party.pin) :
    ∃ receiver, net.ReceiverProved s.party key receiver ∧ receiver.peer = s.party.own ∧
      ∃ earlier, Reachable lib knows earlier ∧ Run lib knows earlier net ∧
        earlier.SenderProved receiver key s.party ∧
        ∃ r ∈ earlier.receivers, r.party = receiver ∧ r.phase = .ok key := by
  have inv := reachable_inv reach
  have known := inv.senders s here
  obtain ⟨sent, member, role, rfl, own⟩ := (known.verified key accepted).sent secret
  obtain ⟨started, -, n, finishedB⟩ := (inv.proofs sent member).receiver role
  obtain ⟨m, finishedA⟩ := known.key sent.key has
  obtain ⟨pin, -, -⟩ := agrees s.party sent.party m n sent.key finishedA finishedB
  obtain ⟨earlier, reached, run, r, inside, party, phase⟩ := reachable_sends reach member role
  have secretB : ¬ knows r.party.pin := by rwa [party, ← pin]
  obtain ⟨sender, proved, finished⟩ := (reachable_inv reached).sender_proved agrees inside
    (congrArg ReceiverPhase.verified phase) (congrArg ReceiverPhase.key phase) secretB
  -- the key has one sender's message in it, and that message has one sender
  obtain ⟨-, -, message⟩ := agrees s.party r.party m _ sent.key finishedA finished
  have this := inv.fresh sender ((run_grows run).senders sender proved.1) s.party
    (List.mem_map.mpr ⟨s, here, rfl⟩) message
  subst this
  rw [party] at proved
  exact ⟨sent.party, ⟨started, pin.symm, own, sent, member, role, rfl, rfl⟩, proved.2.2.1.symm,
    earlier, reached, run, proved, r, inside, party, phase⟩

/-- A device has made this proof in this role, and what is hashed for the other role's proofs is
something else. -/
def Network.MadeAs (lib : Primitives Rand State Key) (net : Network Rand State Key) (role : Role)
    (key : Key) (fp : Fingerprint) (got : Vector UInt8 32) : Prop :=
  (∃ sent ∈ net.proofs, sent.role = role ∧ sent.key = key ∧ sent.party.own = fp ∧
    proof lib sent.key sent.role sent.party.own = got) ∧
  ∀ other ∈ net.proofs, other.role ≠ role → other.bytes ≠ proven role fp

theorem Network.Backed.madeAs {pin : Bytes} {key : Key} {role : Role} {fp : Fingerprint}
    (backed : net.Backed knows pin key (proven role fp)) (secret : ¬ knows pin) :
    net.MadeAs lib role key fp (proof lib key role fp) := by
  obtain ⟨sent, member, rfl, rfl, rfl⟩ := backed.sent secret
  exact ⟨⟨sent, member, rfl, rfl, rfl, rfl⟩,
    fun other _ different same => different (proven_inj same).1⟩

theorem receiverRecv_made {i : Nat} {r : Receiver Rand Key} {got : Vector UInt8 32} {key : Key}
    (here : net.receivers[i]? = some r) (secret : ¬ knows r.party.pin)
    (allowed : net.Allowed lib knows (.toReceiver i (.pairProof got)))
    (waits : r.phase = .proof key)
    (accepted : (receiverRecv lib r.party r.phase (.pairProof got)).1 = .ok key) :
    net.MadeAs lib .sender key r.party.peer got := by
  have fits : verify lib key .sender r.party.peer got = true := by
    rw [waits, receiverRecv] at accepted
    split at accepted
    · assumption
    · exact nomatch accepted
  have same : lib.hmac key (proven .sender r.party.peer) = got := of_decide_eq_true fits
  rw [← show proof lib key .sender r.party.peer = got from same]
  exact (allowed r key here (congrArg ReceiverPhase.key waits) same).madeAs secret

theorem senderRecv_made {i : Nat} {s : Sender Rand State Key} {got : Vector UInt8 32} {key : Key}
    (here : net.senders[i]? = some s) (secret : ¬ knows s.party.pin)
    (allowed : net.Allowed lib knows (.toSender i (.pairProof got)))
    (waits : s.phase = .proof key)
    (accepted : (senderRecv lib s.party s.phase (.pairProof got)).1 = .ok key) :
    net.MadeAs lib .receiver key s.party.peer got := by
  have fits : verify lib key .receiver s.party.peer got = true := by
    rw [waits, senderRecv] at accepted
    split at accepted
    · assumption
    · exact nomatch accepted
  have same : lib.hmac key (proven .receiver s.party.peer) = got := of_decide_eq_true fits
  rw [← show proof lib key .receiver s.party.peer = got from same]
  exact (allowed s key here (congrArg SenderPhase.key waits) same).madeAs secret

/-- Pairing is mutual authentication bound to the link. -/
theorem pairing_authenticates (agrees : Agrees lib) (reach : Reachable lib knows net) :
    (∀ r ∈ net.receivers, ∀ key, r.phase = .paired key → ¬ knows r.party.pin →
      ∃ sender, net.SenderProved r.party key sender) ∧
    (∀ s ∈ net.senders, ∀ key, s.phase = .paired key → ¬ knows s.party.pin →
      ∃ receiver, net.ReceiverProved s.party key receiver ∧ receiver.peer = s.party.own ∧
        ∃ earlier, Reachable lib knows earlier ∧ Run lib knows earlier net ∧
          earlier.SenderProved receiver key s.party ∧
          ∃ r ∈ earlier.receivers, r.party = receiver ∧ r.phase = .ok key) ∧
    (∀ i r got key, net.receivers[i]? = some r → ¬ knows r.party.pin →
      net.Allowed lib knows (.toReceiver i (.pairProof got)) → r.phase = .proof key →
        (receiverRecv lib r.party r.phase (.pairProof got)).1 = .ok key →
          net.MadeAs lib .sender key r.party.peer got) ∧
    ∀ i s got key, net.senders[i]? = some s → ¬ knows s.party.pin →
      net.Allowed lib knows (.toSender i (.pairProof got)) → s.phase = .proof key →
        (senderRecv lib s.party s.phase (.pairProof got)).1 = .ok key →
          net.MadeAs lib .receiver key s.party.peer got := by
  refine ⟨?_, ?_, ?_, ?_⟩
  · intro r here key paired secret
    obtain ⟨sender, proved, -⟩ := (reachable_inv reach).sender_proved agrees here
      (congrArg ReceiverPhase.verified paired) (congrArg ReceiverPhase.key paired) secret
    exact ⟨sender, proved⟩
  · intro s here key paired secret
    exact receiver_proved agrees reach here (congrArg SenderPhase.verified paired)
      (congrArg SenderPhase.key paired) secret
  · exact fun i r got key here secret allowed waits accepted =>
      receiverRecv_made here secret allowed waits accepted
  · exact fun i s got key here secret allowed waits accepted =>
      senderRecv_made here secret allowed waits accepted

theorem pairing_authenticates_home :
    (∃ sender, home.SenderProved television plainKey sender) ∧
      ∃ receiver, home.ReceiverProved phone plainKey receiver ∧ receiver.peer = phone.own := by
  obtain ⟨receivers, senders, -⟩ := pairing_authenticates plain_agrees home_reachable
  obtain ⟨receiver, proved, seen, -⟩ :=
    senders _ List.mem_cons_self _ rfl (fun known => known)
  exact ⟨receivers _ List.mem_cons_self _ rfl (fun known => known), receiver, proved, seen⟩

end Authentication

end Castr.Net.Pairing

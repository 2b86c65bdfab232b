import Castr.Sender.Casts

/-! What holds of the control endpoint in every run: who stops a cast, and what its clients are
told. -/

namespace Castr.Sender.Control

open Castr.Lib Castr.Lib.Text

namespace Endpoint

open World

variable {Rate : Type} (oneDecimal : Rate → List Char)

section Invariant

/-- A cast has written it, except perhaps for the whole of its last number. -/
def Known (w : World Rate) (seen : Record) : Prop :=
  ∃ record ∈ w.records, seen = { record with started := seen.started }

/-- The reply of a cast to a client that had read a record. -/
def Truthful (w : World Rate) (i k : Nat) (req : Request) (seen : Record) (line : List Char) :
    Prop :=
  ∃ record, w.records[i]? = some record ∧
    if seen.token = record.token then
      (req = .stop ∧ line = formatOk stopping ∧ ⟨i, some k⟩ ∈ w.stops) ∨
      (req = .status ∧ ∃ published, ⟨i, k, published⟩ ∈ w.readings ∧
        line = status oneDecimal published)
    else line = Denial.unauthorised.line

def Said (w : World Rate) (i k : Nat) (client : Client) (line : List Char) : Prop :=
  line = [] ∨ ∃ seen req, client.seen = some seen ∧ client.req = some req ∧
    Truthful oneDecimal w i k req seen line

structure Sound (w : World Rate) (k : Nat) (client : Client) : Prop where
  seen : ∀ seen, client.seen = some seen → Known w seen
  said : ∀ i line, client.peer = some (.cast i) → client.phase = .replied line →
    Said oneDecimal w i k client line
  ended : ∀ i response, client.peer = some (.cast i) →
    client.phase = .finished (.talked (.answered response)) →
    ∃ line, Said oneDecimal w i k client line ∧ parseResponse line = .ok response
  discards : ∀ response, client.phase ≠ .discarding (.talked (.answered response))
  unread : client.phase = .arrived → client.seen = none
  alone : client.phase = .arrived ∨ client.phase = .looked → client.peer = none

def AskedBy (w : World Rate) (asked : Asked) : Prop :=
  ∃ client seen req, w.clients[asked.client]? = some client ∧ client.req = some req ∧
    client.seen = some seen ∧ client.peer = some (.cast asked.cast) ∧
    asked.line = formatRequest req seen.token

def StoppedBy (w : World Rate) (stop : Stop) : Prop :=
  ∃ record k client seen, w.records[stop.cast]? = some record ∧ stop.client = some k ∧
    w.clients[k]? = some client ∧ client.req = some .stop ∧ client.seen = some seen ∧
    seen.token = record.token

def Phase.early : Phase → Bool
  | .arrived => true
  | .looked => true
  | .connected => true
  | _ => false

def spent (w : World Rate) (k : Nat) : Nat :=
  w.asked.countP (fun asked => asked.client = k) + w.stops.countP (fun stop => stop.client = some k)

def allowance (client : Option Client) : Nat :=
  client.elim 0 (fun client => if client.phase.early then 0 else 1)

structure Inv (w : World Rate) : Prop where
  solid : ∀ record ∈ w.records, record.token ≠ [] ∧ ∀ c ∈ record.token, isSpace c = false
  file : ∀ seen, w.file = some (.record seen) → Known w seen
  sound : ∀ k client, w.clients[k]? = some client → Sound oneDecimal w k client
  asked : ∀ asked ∈ w.asked, AskedBy w asked
  stops : ∀ stop ∈ w.stops, StoppedBy w stop
  once : ∀ k, spent w k ≤ allowance w.clients[k]?

variable {oneDecimal : Rate → List Char} {w next : World Rate}

theorem inv_empty : Inv oneDecimal (World.empty : World Rate) := by
  constructor <;> simp [World.empty, World.records, spent]

structure Later (before after : Client) : Prop where
  req : after.req = before.req
  seen : ∀ seen, before.seen = some seen → after.seen = some seen
  peer : ∀ peer, before.peer = some peer → after.peer = some peer

structure Grows (w next : World Rate) : Prop where
  records : w.records <+: next.records
  clients : ∀ (k : Nat) (client : Client), w.clients[k]? = some client →
    ∃ after, next.clients[k]? = some after ∧ Later client after
  stops : w.stops ⊆ next.stops
  readings : w.readings ⊆ next.readings

theorem Later.same (client : Client) : Later client client := ⟨rfl, fun _ => id, fun _ => id⟩

theorem Grows.record (grows : Grows w next) {i : Nat} {record : Record}
    (here : w.records[i]? = some record) : next.records[i]? = some record := by
  obtain ⟨more, same⟩ := grows.records
  rw [← same]
  exact (List.getElem?_append_left (List.getElem?_eq_some_iff.mp here).1).trans here

theorem Grows.known (grows : Grows w next) {seen : Record} (known : Known w seen) :
    Known next seen := by
  obtain ⟨record, member, same⟩ := known
  exact ⟨record, grows.records.subset member, same⟩

theorem Grows.truthful (grows : Grows w next) {i k : Nat} {req : Request} {seen : Record}
    {line : List Char} (truthful : Truthful oneDecimal w i k req seen line) :
    Truthful oneDecimal next i k req seen line := by
  obtain ⟨record, here, holds⟩ := truthful
  refine ⟨record, grows.record here, ?_⟩
  split at holds
  · rename_i own
    rw [if_pos own]
    rcases holds with ⟨stop, reply, told⟩ | ⟨status, shows⟩
    · exact .inl ⟨stop, reply, grows.stops told⟩
    · obtain ⟨published, among, reply⟩ := shows
      exact .inr ⟨status, published, grows.readings among, reply⟩
  · rename_i other
    rw [if_neg other]
    exact holds

theorem Grows.said (grows : Grows w next) {i k : Nat} {client : Client} {line : List Char}
    (said : Said oneDecimal w i k client line) : Said oneDecimal next i k client line := by
  refine said.imp_right ?_
  rintro ⟨seen, req, read, asks, truthful⟩
  exact ⟨seen, req, read, asks, grows.truthful truthful⟩

theorem Grows.sound (grows : Grows w next) {k : Nat} {client : Client}
    (sound : Sound oneDecimal w k client) : Sound oneDecimal next k client := by
  refine ⟨fun seen read => grows.known (sound.seen seen read), fun i line peer phase =>
    grows.said (sound.said i line peer phase), fun i response peer phase => ?_, sound.discards,
    sound.unread, sound.alone⟩
  obtain ⟨line, said, read⟩ := sound.ended i response peer phase
  exact ⟨line, grows.said said, read⟩

theorem Grows.askedBy (grows : Grows w next) {asked : Asked} (by_ : AskedBy w asked) :
    AskedBy next asked := by
  obtain ⟨client, seen, req, here, asks, read, peer, line⟩ := by_
  obtain ⟨after, there, later⟩ := grows.clients _ client here
  exact ⟨after, seen, req, there, later.req.trans asks, later.seen _ read, later.peer _ peer, line⟩

theorem Grows.stoppedBy (grows : Grows w next) {stop : Stop} (by_ : StoppedBy w stop) :
    StoppedBy next stop := by
  obtain ⟨record, k, client, seen, cast, from_, here, asks, read, own⟩ := by_
  obtain ⟨after, there, later⟩ := grows.clients _ client here
  exact ⟨record, k, after, seen, grows.record cast, from_, there, later.req.trans asks,
    later.seen _ read, own⟩

theorem Inv.around (inv : Inv oneDecimal w) (clients : next.clients = w.clients)
    (asked : next.asked = w.asked) (stops : next.stops = w.stops)
    (readings : next.readings = w.readings) (records : w.records <+: next.records)
    (solid : ∀ record ∈ next.records, record.token ≠ [] ∧ ∀ c ∈ record.token, isSpace c = false)
    (file : ∀ seen, next.file = some (.record seen) → Known next seen) : Inv oneDecimal next := by
  have grows : Grows w next := by
    refine ⟨records, fun k client here =>
      ⟨client, by rw [clients]; exact here, .same client⟩, ?_, ?_⟩
    · rw [stops]
      exact List.Subset.refl _
    · rw [readings]
      exact List.Subset.refl _
  refine ⟨solid, file, fun k client here => ?_, ?_, ?_, fun k => ?_⟩
  · rw [clients] at here
    exact grows.sound (inv.sound k client here)
  · rw [asked]
    exact fun one member => grows.askedBy (inv.asked one member)
  · rw [stops]
    exact fun one member => grows.stoppedBy (inv.stops one member)
  · rw [spent, asked, stops, clients]
    exact inv.once k

theorem Inv.file_ (inv : Inv oneDecimal w) (file : Option File)
    (known : ∀ seen, file = some (.record seen) → Known w seen) :
    Inv oneDecimal { w with file := file } :=
  inv.around rfl rfl rfl rfl List.prefix_rfl inv.solid known

theorem records_set {i : Nat} {cast after : Cast Rate} (here : w.casts[i]? = some cast)
    (same : after.record = cast.record) : (w.casts.set i after).map Cast.record = w.records := by
  refine List.ext_getElem? (fun j => ?_)
  rw [World.records, List.getElem?_map, List.getElem?_map, List.getElem?_set]
  by_cases at_ : i = j
  · subst at_
    rw [if_pos rfl, if_pos (List.getElem?_eq_some_iff.mp here).1, here]
    exact congrArg some same
  · rw [if_neg at_]

theorem Inv.cast (inv : Inv oneDecimal w) {i : Nat} {cast after : Cast Rate}
    (here : w.casts[i]? = some cast) (same : after.record = cast.record) :
    Inv oneDecimal { w with casts := w.casts.set i after } := by
  have kept : ({ w with casts := w.casts.set i after } : World Rate).records = w.records :=
    records_set here same
  refine inv.around rfl rfl rfl rfl (kept.symm ▸ List.prefix_rfl) (by rw [kept]; exact inv.solid)
    (fun seen file => ?_)
  obtain ⟨record, member, eq⟩ := inv.file seen file
  exact ⟨record, kept ▸ member, eq⟩

theorem Inv.start (inv : Inv oneDecimal w) {record : Record}
    (solid : record.token ≠ [] ∧ ∀ c ∈ record.token, isSpace c = false) :
    Inv oneDecimal { w with casts := w.casts ++ [⟨record, true, .current none⟩] } := by
  have records : ({ w with casts := w.casts ++ [⟨record, true, .current none⟩] } :
      World Rate).records = w.records ++ [record] := List.map_append
  refine inv.around rfl rfl rfl rfl (by rw [records]; exact List.prefix_append _ _) ?_
    (fun seen file => ?_)
  · rw [records]
    intro other member
    rcases List.mem_append.mp member with old | new
    · exact inv.solid other old
    · obtain rfl := List.mem_singleton.mp new
      exact solid
  · obtain ⟨other, member, eq⟩ := inv.file seen file
    exact ⟨other, by rw [records]; exact List.mem_append_left _ member, eq⟩

theorem Inv.turn (inv : Inv oneDecimal w) {k : Nat} {client after : Client}
    (here : w.clients[k]? = some client) (later : Later client after)
    (early : after.phase.early = true → client.phase.early = true)
    (sound : Sound oneDecimal w k after) : Inv oneDecimal (w.turn k after) := by
  have inside := (List.getElem?_eq_some_iff.mp here).1
  have clients (j : Nat) :
      (w.clients.set k after)[j]? = if k = j then some after else w.clients[j]? := by
    rw [List.getElem?_set, if_pos inside]
  have grows : Grows w (w.turn k after) := by
    refine ⟨List.prefix_rfl, fun j other there => ?_, List.Subset.refl _, List.Subset.refl _⟩
    rw [World.turn, clients]
    by_cases at_ : k = j
    · subst at_
      obtain rfl := Option.some.inj (here.symm.trans there)
      exact ⟨after, if_pos rfl, later⟩
    · exact ⟨other, (if_neg at_).trans there, .same other⟩
  refine ⟨inv.solid, inv.file, fun j other there => ?_,
    fun one member => grows.askedBy (inv.asked one member),
    fun one member => grows.stoppedBy (inv.stops one member), fun j => ?_⟩
  · rw [World.turn, clients] at there
    by_cases at_ : k = j
    · subst at_
      rw [if_pos rfl] at there
      obtain rfl := Option.some.inj there
      exact grows.sound sound
    · rw [if_neg at_] at there
      exact grows.sound (inv.sound j other there)
  · have once := inv.once j
    rw [World.turn, clients]
    by_cases at_ : k = j
    · subst at_
      rw [here] at once
      rw [if_pos rfl]
      refine once.trans ?_
      rw [allowance, allowance, Option.elim_some, Option.elim_some]
      by_cases soon : after.phase.early = true
      · rw [if_pos soon, if_pos (early soon)]
      · rw [if_neg soon]
        split <;> decide
    · rw [if_neg at_]
      exact once

theorem Inv.arrive (inv : Inv oneDecimal w) (req : Option Request) :
    Inv oneDecimal { w with clients := w.clients ++ [⟨req, none, none, .arrived⟩] } := by
  have grows : Grows w { w with clients := w.clients ++ [⟨req, none, none, .arrived⟩] } :=
    ⟨List.prefix_rfl, fun k client here => ⟨client,
      (List.getElem?_append_left (List.getElem?_eq_some_iff.mp here).1).trans here, .same client⟩,
      List.Subset.refl _, List.Subset.refl _⟩
  refine ⟨inv.solid, inv.file, fun k client here => ?_,
    fun one member => grows.askedBy (inv.asked one member),
    fun one member => grows.stoppedBy (inv.stops one member), fun k => ?_⟩
  · dsimp only at here
    rw [List.getElem?_append] at here
    split at here
    · exact grows.sound (inv.sound k client here)
    · rw [List.getElem?_singleton] at here
      split at here
      · obtain rfl := Option.some.inj here
        exact ⟨nofun, nofun, nofun, nofun, fun _ => rfl, fun _ => rfl⟩
      · cases here
  · have once := inv.once k
    dsimp only
    rw [List.getElem?_append]
    split
    · exact once
    · rename_i beyond
      rw [List.getElem?_eq_none (Nat.le_of_not_lt beyond)] at once
      exact once.trans (Nat.zero_le _)

theorem Inv.ask (inv : Inv oneDecimal w) {one : Asked} (by_ : AskedBy w one)
    (unspent : spent w one.client = 0) (room : allowance w.clients[one.client]? = 1) :
    Inv oneDecimal { w with asked := w.asked ++ [one] } := by
  have grows : Grows w { w with asked := w.asked ++ [one] } :=
    ⟨List.prefix_rfl, fun k client here => ⟨client, here, .same client⟩, List.Subset.refl _,
      List.Subset.refl _⟩
  refine ⟨inv.solid, inv.file,
    fun k client here => grows.sound (inv.sound k client here), fun other member => ?_, inv.stops,
    fun k => ?_⟩
  · rcases List.mem_append.mp member with old | new
    · exact inv.asked other old
    · obtain rfl := List.mem_singleton.mp new
      exact by_
  · have once := inv.once k
    rw [spent] at once unspent ⊢
    dsimp only
    rw [List.countP_append, List.countP_singleton]
    by_cases own : one.client = k
    · subst own
      rw [if_pos (decide_eq_true rfl), room]
      omega
    · rw [if_neg (by simpa using own)]
      omega

/-- A cast serves a line, and is told to stop or not. -/
theorem Inv.take (inv : Inv oneDecimal w) {place : Nat} {one : Asked}
    (here : w.asked[place]? = some one) (published : Published Rate) (told : Bool)
    (own : told = true → StoppedBy w ⟨one.cast, some one.client⟩) :
    Inv oneDecimal { w.take place one published with
      stops := if told then w.stops ++ [⟨one.cast, some one.client⟩] else w.stops } := by
  obtain ⟨inside, at_⟩ := List.getElem?_eq_some_iff.mp here
  have grows : Grows w { w.take place one published with
      stops := if told then w.stops ++ [⟨one.cast, some one.client⟩] else w.stops } := by
    refine ⟨List.prefix_rfl, fun k client there => ⟨client, there, .same client⟩, ?_,
      List.subset_append_left _ _⟩
    cases told with
    | false => exact List.Subset.refl _
    | true => exact List.subset_append_left _ _
  refine ⟨inv.solid, inv.file,
    fun k client there => grows.sound (inv.sound k client there),
    fun other member => grows.askedBy (inv.asked other (List.mem_of_mem_eraseIdx member)),
    fun stop member => ?_, fun k => ?_⟩
  · cases told with
    | false => exact grows.stoppedBy (inv.stops stop member)
    | true =>
        rcases List.mem_append.mp member with old | new
        · exact grows.stoppedBy (inv.stops stop old)
        · obtain rfl := List.mem_singleton.mp new
          exact grows.stoppedBy (own rfl)
  · have once := inv.once k
    have counted := (List.getElem_cons_eraseIdx_perm inside).countP_eq
      (fun asked => decide (asked.client = k))
    rw [List.countP_cons, at_] at counted
    rw [spent] at once ⊢
    dsimp only [World.take]
    refine Nat.le_trans ?_ once
    cases told with
    | false =>
        rw [if_neg Bool.false_ne_true]
        omega
    | true =>
        rw [if_pos rfl, List.countP_append, List.countP_singleton]
        by_cases same : one.client = k
        · simp only [same, decide_true, if_true] at counted ⊢
          omega
        · simp only [same, Option.some.injEq, decide_false, Bool.false_eq_true, if_false]
            at counted ⊢
          omega

theorem Later.phase (client : Client) (phase : Phase) :
    Later client { client with phase := phase } :=
  ⟨rfl, fun _ => id, fun _ => id⟩

theorem conclude_unanswered (client : Client) (report : Report) (response : Response)
    (other : report ≠ .answered response) :
    client.conclude report ≠ .talked (.answered response) := by
  rw [Client.conclude]
  split
  · exact nofun
  · exact fun same => other (Result.talked.inj same)

theorem Sound.quiet {k : Nat} {client : Client} (sound : Sound oneDecimal w k client)
    (phase : Phase)
    (unheard : ∀ line, phase ≠ .replied line)
    (unanswered : ∀ response, phase ≠ .finished (.talked (.answered response)))
    (undiscarded : ∀ response, phase ≠ .discarding (.talked (.answered response)))
    (later : phase ≠ .arrived ∧ phase ≠ .looked) :
    Sound oneDecimal w k { client with phase := phase } where
  seen := sound.seen
  said := fun _ line _ same => absurd same (unheard line)
  ended := fun _ response _ same => absurd same (unanswered response)
  discards := undiscarded
  unread := fun same => absurd same later.1
  alone := fun same => same.elim (fun same => absurd same later.1) (fun same => absurd same later.2)

theorem Inv.look (inv : Inv oneDecimal w) {k : Nat} {client : Client}
    (here : w.clients[k]? = some client) (phase : client.phase = .arrived) :
    Inv oneDecimal (w.turn k (World.looked client w.file)) := by
  have sound := inv.sound k client here
  have early : (client.phase.early = true) := by
    rw [phase]
    rfl
  cases file : w.file with
  | none =>
      refine inv.turn here (.phase client _) (fun _ => early)
        (sound.quiet _ nofun ?_ nofun ⟨nofun, nofun⟩)
      exact fun response same =>
        conclude_unanswered client .noCast response nofun (Phase.finished.inj same)
  | some file_ =>
      cases file_ with
      | unreadable =>
          refine inv.turn here (.phase client _) (fun _ => early)
            (sound.quiet _ nofun nofun ?_ ⟨nofun, nofun⟩)
          exact fun response same =>
            conclude_unanswered client (.stale none) response nofun (Phase.discarding.inj same)
      | record record =>
          refine inv.turn here ⟨rfl, fun seen same => ?_, fun _ => id⟩ (fun _ => early)
            ⟨fun seen same => ?_, nofun, nofun, nofun, nofun, fun _ => sound.alone (.inl phase)⟩
          · rw [sound.unread phase] at same
            cases same
          · obtain rfl := Option.some.inj same
            exact inv.file record file

theorem Inv.connect (inv : Inv oneDecimal w) {k : Nat} {client : Client} {record : Record}
    {peer : Option Peer} (here : w.clients[k]? = some client) (phase : client.phase = .looked) :
    Inv oneDecimal (w.turn k (World.connected client record peer)) := by
  have sound := inv.sound k client here
  have alone := sound.alone (.inr phase)
  have early : (client.phase.early = true) := by
    rw [phase]
    rfl
  have joins (phase : Phase) : Later client { client with peer := peer, phase := phase } :=
    ⟨rfl, fun _ => id, fun _ same => by rw [alone] at same; cases same⟩
  cases peer with
  | none =>
      refine inv.turn here (.phase client _) (fun _ => early)
        (sound.quiet _ nofun nofun ?_ ⟨nofun, nofun⟩)
      exact fun response same => conclude_unanswered client (.stale (some record.started)) response
        nofun (Phase.discarding.inj same)
  | some peer =>
      rw [World.connected, interpret]
      dsimp only [Option.isSome_some]
      rw [if_pos rfl]
      dsimp only
      split
      · exact inv.turn here (joins _) (fun _ => early)
          ⟨sound.seen, nofun, nofun, nofun, nofun, by simp⟩
      · exact inv.turn here (joins _) (fun _ => early)
          ⟨sound.seen, nofun, nofun, nofun, nofun, by simp⟩

theorem Inv.reply (inv : Inv oneDecimal w) {k : Nat} {client : Client} {line : List Char}
    (here : w.clients[k]? = some client)
    (said : ∀ i, client.peer = some (.cast i) → Said oneDecimal w i k client line) :
    Inv oneDecimal (w.turn k { client with phase := .replied line }) := by
  have sound := inv.sound k client here
  refine inv.turn here (.phase client _) nofun
    ⟨sound.seen, fun i other peer same => ?_, nofun, nofun, nofun, by simp⟩
  obtain rfl := Phase.replied.inj same
  exact said i peer

theorem Inv.hear (inv : Inv oneDecimal w) {k : Nat} {client : Client} {record : Record}
    {line : List Char} (here : w.clients[k]? = some client) (phase : client.phase = .replied line) :
    Inv oneDecimal (w.turn k (World.heard client record line)) := by
  have sound := inv.sound k client here
  rw [World.heard]
  split
  · exact inv.turn here (.phase client _) nofun (sound.quiet _ nofun nofun nofun ⟨nofun, nofun⟩)
  · cases read : parseResponse line with
    | error unreadable =>
        exact inv.turn here (.phase client _) nofun
          (sound.quiet _ nofun nofun nofun ⟨nofun, nofun⟩)
    | ok response =>
        refine inv.turn here (.phase client _) nofun
          ⟨sound.seen, nofun, fun i other peer same => ?_, nofun, nofun, by simp⟩
        obtain rfl := Report.answered.inj (Result.talked.inj (Phase.finished.inj same))
        exact ⟨line, sound.said i line peer phase, read⟩

theorem Inv.discard (inv : Inv oneDecimal w) {k : Nat} {client : Client} {result : Result}
    (here : w.clients[k]? = some client) (phase : client.phase = .discarding result) :
    Inv oneDecimal { w.turn k { client with phase := .finished result } with file := none } := by
  have sound := inv.sound k client here
  refine Inv.file_ (inv.turn here (.phase client (.finished result)) nofun ?_) none
    (fun _ same => by cases same)
  refine sound.quiet (.finished result) nofun (fun response same => ?_) nofun ⟨nofun, nofun⟩
  exact sound.discards response (phase.trans (congrArg Phase.discarding (Phase.finished.inj same)))

theorem Inv.send (inv : Inv oneDecimal w) {k i : Nat} {client : Client} {record : Record}
    {req : Request} (here : w.clients[k]? = some client) (phase : client.phase = .connected)
    (seen : client.seen = some record) (asks : client.req = some req)
    (peer : client.peer = some (.cast i)) :
    Inv oneDecimal { w.turn k { client with phase := .waiting } with
      asked := w.asked ++ [⟨i, k, formatRequest req record.token⟩] } := by
  have sound := inv.sound k client here
  have moved := inv.turn here (.phase client .waiting) nofun
    (sound.quiet .waiting nofun nofun nofun ⟨nofun, nofun⟩)
  have there : (w.turn k { client with phase := .waiting }).clients[k]? =
      some { client with phase := .waiting } := by
    rw [World.turn, List.getElem?_set, if_pos rfl, if_pos (List.getElem?_eq_some_iff.mp here).1]
  refine moved.ask ⟨_, record, req, there, asks, seen, peer, rfl⟩ ?_ ?_
  · have once := inv.once k
    rw [here, allowance, Option.elim_some, phase] at once
    exact Nat.le_zero.mp once
  · dsimp only
    rw [there]
    rfl

section Replies

variable (oneDecimal) {token : List Char} (some_ : token ≠ [])
  (solid : ∀ c ∈ token, isSpace c = false)
  (published : Published Rate)

include some_ solid

theorem serve_stop : serve oneDecimal (formatRequest .stop token) token published =
    (formatOk stopping, true) := by
  unfold serve
  rw [parseRequest_formatRequest .stop token some_ solid]

theorem serve_status : serve oneDecimal (formatRequest .status token) token published =
    (status oneDecimal published, false) := by
  unfold serve
  rw [parseRequest_formatRequest .status token some_ solid]

theorem serve_other (req : Request) {other : List Char} (apart : token ≠ other) :
    serve oneDecimal (formatRequest req token) other published =
      (Denial.unauthorised.line, false) := by
  unfold serve
  rw [parseRequest_other req token other some_ solid apart]

end Replies

theorem serve_askedBy (inv : Inv oneDecimal w) {one : Asked} {cast : Cast Rate}
    {client : Client} {seen : Record} {req : Request} {reply : List Char × Bool}
    (here : w.casts[one.cast]? = some cast) (at_ : w.clients[one.client]? = some client)
    (asks : client.req = some req) (read : client.seen = some seen)
    (served : serve oneDecimal (formatRequest req seen.token) cast.record.token cast.published =
      reply) :
    (reply.2 = true → StoppedBy w ⟨one.cast, some one.client⟩) ∧
      ∀ next : World Rate, next.records = w.records →
        ⟨one.cast, one.client, cast.published⟩ ∈ next.readings →
        (reply.2 = true → ⟨one.cast, some one.client⟩ ∈ next.stops) →
        Truthful oneDecimal next one.cast one.client req seen reply.1 := by
  have record : w.records[one.cast]? = some cast.record := by
    rw [World.records, List.getElem?_map, here]
    rfl
  obtain ⟨wrote, known, same⟩ := (inv.sound _ client at_).seen seen read
  have token : seen.token = wrote.token := by rw [same]
  obtain ⟨some_, solid⟩ := inv.solid wrote known
  rw [← token] at some_ solid
  by_cases own : seen.token = cast.record.token
  · rw [← own] at served
    cases req with
    | stop =>
        obtain rfl := (serve_stop oneDecimal some_ solid cast.published).symm.trans served
        refine ⟨fun _ => ⟨cast.record, one.client, client, seen, record, rfl, at_, asks, read, own⟩,
          fun next records _ told => ⟨cast.record, by rw [records]; exact record, ?_⟩⟩
        rw [if_pos own]
        exact .inl ⟨rfl, rfl, told rfl⟩
    | status =>
        obtain rfl := (serve_status oneDecimal some_ solid cast.published).symm.trans served
        refine ⟨fun told => absurd told Bool.false_ne_true,
          fun next records read _ => ⟨cast.record, by rw [records]; exact record, ?_⟩⟩
        rw [if_pos own]
        exact .inr ⟨rfl, cast.published, read, rfl⟩
  · obtain rfl := (serve_other oneDecimal some_ solid cast.published req own).symm.trans served
    refine ⟨fun told => absurd told Bool.false_ne_true,
      fun next records _ _ => ⟨cast.record, by rw [records]; exact record, ?_⟩⟩
    rw [if_neg own]

theorem Inv.serves (inv : Inv oneDecimal w) {place : Nat} {one : Asked} {cast : Cast Rate}
    (asked : w.asked[place]? = some one) (here : w.casts[one.cast]? = some cast) :
    let served := serveAt oneDecimal (w.take place one cast.published) cast one.cast
      (some one.client) one.line
    Inv oneDecimal (served.1.reply one.client served.2) := by
  obtain ⟨client, seen, req, at_, asks, read, peer, line⟩ :=
    inv.asked one (List.mem_of_getElem? asked)
  obtain ⟨stops, tells⟩ := serve_askedBy inv here at_ asks read rfl
  rw [← line] at stops tells
  intro served
  have told := inv.take asked cast.published _ stops
  have world : served.1 = { w.take place one cast.published with
      stops := if (serve oneDecimal one.line cast.record.token cast.published).2 then
        w.stops ++ [⟨one.cast, some one.client⟩] else w.stops } := by
    show (if _ then _ else _) = _
    split <;> rfl
  rw [← world] at told
  rw [World.reply]
  split
  · rename_i other there
    have same : served.1.clients = w.clients := by
      rw [world]
      rfl
    rw [same] at there
    obtain rfl := Option.some.inj (at_.symm.trans there)
    split
    · refine told.reply (by rw [same]; exact at_) (fun i joined => .inr ⟨seen, req, read, asks, ?_⟩)
      obtain rfl := Peer.cast.inj (Option.some.inj (peer.symm.trans joined))
      refine tells served.1 (by rw [world]; rfl)
        (by rw [world]; exact List.mem_append_right _ List.mem_cons_self) (fun stopped => ?_)
      rw [world]
      dsimp only
      rw [if_pos stopped]
      exact List.mem_append_right _ List.mem_cons_self
    · exact told
  · exact told

section Events

variable (inv : Inv oneDecimal w) {i k : Nat}
include inv

theorem Inv.started {pid : UInt32} {port : UInt16} {bytes : Vector UInt8 16}
    {display address : List Char} {now : UInt64}
    (acted : act oneDecimal w (.started pid port bytes display address now) = some next) :
    Inv oneDecimal next := by
  rw [act] at acted
  split at acted
  · cases acted
  · obtain rfl := Option.some.inj acted
    exact inv.start (mintToken_solid bytes)

theorem Inv.wrote {started : Option UInt64}
    (acted : act oneDecimal w (.wrote i started) = some next) : Inv oneDecimal next := by
  obtain ⟨cast, here, acted⟩ := Option.bind_eq_some_iff.mp acted
  obtain rfl := Option.some.inj acted
  refine inv.file_ _ (fun seen same => ?_)
  cases started with
  | none => cases same
  | some now =>
      obtain rfl := File.record.inj (Option.some.inj same)
      exact ⟨cast.record, List.mem_map_of_mem (List.mem_of_getElem? here), rfl⟩

theorem Inv.published {snapshot : Snapshot Rate}
    (acted : act oneDecimal w (.published i snapshot) = some next) : Inv oneDecimal next := by
  obtain ⟨cast, here, acted⟩ := Option.bind_eq_some_iff.mp acted
  obtain rfl := Option.some.inj acted
  exact inv.cast here (cast.publish_record snapshot)

theorem Inv.panicked (acted : act oneDecimal w (.panicked i) = some next) :
    Inv oneDecimal next := by
  obtain ⟨cast, here, acted⟩ := Option.bind_eq_some_iff.mp acted
  obtain rfl := Option.some.inj acted
  exact inv.cast here rfl

theorem Inv.removed (acted : act oneDecimal w (.removed i) = some next) : Inv oneDecimal next := by
  obtain ⟨cast, here, acted⟩ := Option.bind_eq_some_iff.mp acted
  obtain rfl := Option.some.inj acted
  exact inv.file_ none (fun _ same => by cases same)

theorem Inv.closed (acted : act oneDecimal w (.closed i) = some next) : Inv oneDecimal next := by
  obtain ⟨cast, here, acted⟩ := Option.bind_eq_some_iff.mp acted
  obtain rfl := Option.some.inj acted
  exact inv.cast here rfl

theorem Inv.arrived {req : Option Request} (acted : act oneDecimal w (.arrived req) = some next) :
    Inv oneDecimal next := by
  obtain rfl := Option.some.inj acted
  exact inv.arrive req

theorem Inv.looked (acted : act oneDecimal w (.looked k) = some next) : Inv oneDecimal next := by
  obtain ⟨client, here, acted⟩ := Option.bind_eq_some_iff.mp acted
  split at acted
  · rename_i phase
    obtain rfl := Option.some.inj acted
    exact inv.look here phase
  · cases acted

theorem Inv.connected {peer : Option Peer} (acted : act oneDecimal w (.connected k peer) =
    some next) :
    Inv oneDecimal next := by
  obtain ⟨client, here, acted⟩ := Option.bind_eq_some_iff.mp acted
  obtain ⟨record, seen, acted⟩ := Option.bind_eq_some_iff.mp acted
  split at acted
  · rename_i ready
    obtain rfl := Option.some.inj acted
    exact inv.connect here ready.1
  · cases acted

theorem Inv.sent (acted : act oneDecimal w (.sent k) = some next) : Inv oneDecimal next := by
  obtain ⟨client, here, acted⟩ := Option.bind_eq_some_iff.mp acted
  obtain ⟨record, seen, acted⟩ := Option.bind_eq_some_iff.mp acted
  obtain ⟨req, asks, acted⟩ := Option.bind_eq_some_iff.mp acted
  split at acted
  · rename_i phase
    dsimp only at acted
    split at acted
    · rename_i i peer
      obtain rfl := Option.some.inj acted
      exact inv.send here phase seen asks peer
    · obtain rfl := Option.some.inj acted
      exact inv.turn here (.phase client .waiting) nofun
        ((inv.sound k client here).quiet .waiting nofun nofun nofun ⟨nofun, nofun⟩)
  · cases acted

theorem Inv.served {place : Nat} (acted : act oneDecimal w (.served place) = some next) :
    Inv oneDecimal next := by
  obtain ⟨one, asked, acted⟩ := Option.bind_eq_some_iff.mp acted
  obtain ⟨cast, here, acted⟩ := Option.bind_eq_some_iff.mp acted
  split at acted
  · obtain rfl := Option.some.inj acted
    exact inv.serves asked here
  · cases acted

theorem Inv.hungUp (acted : act oneDecimal w (.hungUp k) = some next) : Inv oneDecimal next := by
  obtain ⟨client, here, acted⟩ := Option.bind_eq_some_iff.mp acted
  split at acted
  · obtain rfl := Option.some.inj acted
    exact inv.reply here (fun _ _ => .inl rfl)
  · cases acted

theorem Inv.misled {line : List Char} (acted : act oneDecimal w (.misled k line) = some next) :
    Inv oneDecimal next := by
  obtain ⟨client, here, acted⟩ := Option.bind_eq_some_iff.mp acted
  split at acted
  · rename_i other
    obtain rfl := Option.some.inj acted
    refine inv.reply here (fun i peer => ?_)
    cases other.2.symm.trans peer
  · cases acted

theorem Inv.gaveUp (acted : act oneDecimal w (.gaveUp k) = some next) : Inv oneDecimal next := by
  obtain ⟨client, here, acted⟩ := Option.bind_eq_some_iff.mp acted
  split at acted
  · obtain rfl := Option.some.inj acted
    exact inv.turn here (.phase client (.finished .failed)) nofun
      ((inv.sound k client here).quiet (.finished .failed) nofun nofun nofun ⟨nofun, nofun⟩)
  · cases acted

theorem Inv.heard (acted : act oneDecimal w (.heard k) = some next) : Inv oneDecimal next := by
  obtain ⟨client, here, acted⟩ := Option.bind_eq_some_iff.mp acted
  obtain ⟨record, seen, acted⟩ := Option.bind_eq_some_iff.mp acted
  split at acted
  · rename_i line phase
    obtain rfl := Option.some.inj acted
    exact inv.hear here phase
  · cases acted

theorem Inv.discarded (acted : act oneDecimal w (.discarded k) = some next) :
    Inv oneDecimal next := by
  obtain ⟨client, here, acted⟩ := Option.bind_eq_some_iff.mp acted
  split at acted
  · rename_i result phase
    obtain rfl := Option.some.inj acted
    exact inv.discard here phase
  · cases acted

theorem Inv.stranger {line : List Char} (acted : act oneDecimal w (.stranger i line) = some next)
    (unguessed : ∀ cast, w.casts[i]? = some cast → (words line)[1]? ≠ some cast.record.token) :
    Inv oneDecimal next := by
  obtain ⟨cast, here, acted⟩ := Option.bind_eq_some_iff.mp acted
  split at acted
  · obtain rfl := Option.some.inj acted
    rw [serveAt, serve_stranger oneDecimal line _ _ (unguessed cast here)]
    exact inv
  · cases acted

end Events

theorem inv_act (inv : Inv oneDecimal w) {event : Event Rate}
    (acted : act oneDecimal w event = some next)
    (unguessed : ∀ i line cast, event = .stranger i line → w.casts[i]? = some cast →
      (words line)[1]? ≠ some cast.record.token) : Inv oneDecimal next := by
  cases event with
  | started pid port bytes display address now => exact inv.started acted
  | wrote i started => exact inv.wrote acted
  | published i snapshot => exact inv.published acted
  | panicked i => exact inv.panicked acted
  | removed i => exact inv.removed acted
  | closed i => exact inv.closed acted
  | arrived req => exact inv.arrived acted
  | looked k => exact inv.looked acted
  | connected k peer => exact inv.connected acted
  | sent k => exact inv.sent acted
  | served place => exact inv.served acted
  | hungUp k => exact inv.hungUp acted
  | misled k line => exact inv.misled acted
  | gaveUp k => exact inv.gaveUp acted
  | heard k => exact inv.heard acted
  | discarded k => exact inv.discarded acted
  | stranger i line => exact inv.stranger acted (fun cast => unguessed i line cast rfl)

theorem inv_final {events : List (Event Rate)} (unguessed : Unguessed events)
    (ended : Halting.final (step oneDecimal) World.empty events = some w) : Inv oneDecimal w := by
  refine Halting.final_induction (step oneDecimal)
    (fun events w => Unguessed events → Inv oneDecimal w) (fun _ => inv_empty) ?_ events
      ended unguessed
  intro front event before after out reached taken inv unguessed
  refine inv_act (inv (unguessed_front unguessed)) (acted_of_step taken) ?_
  rintro i line cast rfl here
  exact token_unguessed unguessed reached here

theorem known_own (tokens : (w.records.map Record.token).Nodup) {i : Nat} {record seen : Record}
    (here : w.records[i]? = some record) (known : Known w seen) (same : seen.token = record.token) :
    seen = { record with started := seen.started } := by
  obtain ⟨wrote, member, eq⟩ := known
  have token : wrote.token = record.token := by
    rw [← same, eq]
  have one := List.inj_on_of_nodup_map tokens member (List.mem_of_getElem? here) token
  rw [← one]
  exact eq

theorem cast_of_record {i : Nat} {record : Record} (here : w.records[i]? = some record) :
    ∃ cast, w.casts[i]? = some cast ∧ cast.record = record := by
  rw [World.records, List.getElem?_map] at here
  exact Option.map_eq_some_iff.mp here

/-- The record that the client has read is the cast's, but for its last number perhaps. -/
def Client.ReadOf (client : Client) (cast : Cast Rate) : Prop :=
  ∃ seen, client.seen = some seen ∧ seen = { cast.record with started := seen.started }

end Invariant

/-- With tokens that are minted once and not guessed, in whatever order casts, clients and strangers
act, and whoever has the ports: a cast is told to stop only by clients that ask for that and have
read its own record, and by each at most once. -/
theorem stopped_by_reader {Rate : Type} (oneDecimal : Rate → List Char) (events : List (Event Rate))
    (fresh : Fresh events) (unguessed : Unguessed events) (w : World Rate)
    (ended : Halting.final (step oneDecimal) World.empty events = some w) :
    (∀ stop ∈ w.stops, ∃ cast k client, w.casts[stop.cast]? = some cast ∧ stop.client = some k ∧
      w.clients[k]? = some client ∧ client.req = some .stop ∧ client.ReadOf cast) ∧
    (w.stops.map Stop.client).Nodup := by
  have inv := inv_final unguessed ended
  have each (stop : Stop) (member : stop ∈ w.stops) : ∃ cast k client,
      w.casts[stop.cast]? = some cast ∧ stop.client = some k ∧ w.clients[k]? = some client ∧
        client.req = some .stop ∧ client.ReadOf cast := by
    obtain ⟨record, k, client, seen, here, from_, there, asks, read, own⟩ := inv.stops stop member
    obtain ⟨cast, at_, rfl⟩ := cast_of_record here
    exact ⟨cast, k, client, at_, from_, there, asks, seen, read,
      known_own (tokens_apart fresh ended) here ((inv.sound k client there).seen seen read) own⟩
  refine ⟨each, List.nodup_iff_count_le_one.mpr (fun client => ?_)⟩
  rw [List.count, List.countP_map]
  cases client with
  | none =>
      refine (List.countP_eq_zero.mpr (fun stop member => ?_)).le.trans (Nat.zero_le 1)
      obtain ⟨_, k, _, -, from_, -⟩ := each stop member
      simp [from_]
  | some k =>
      have once := inv.once k
      have most : allowance w.clients[k]? ≤ 1 := by
        cases w.clients[k]? with
        | none => exact Nat.zero_le 1
        | some client =>
            rw [allowance, Option.elim_some]
            split <;> decide
      have same : w.stops.countP (fun stop => decide (stop.client = some k)) =
          w.stops.countP ((fun client => client == some k) ∘ Stop.client) := by
        refine List.countP_congr (fun stop _ => ?_)
        simp
      rw [spent, same] at once
      omega

/-- A client that has read the record of a cast that is gone finds another at its port, and a
stranger tries a token of its own. -/
def reused : List (Event Unit) :=
  [.started 1 5 (.replicate 16 0) [] [] 0, .wrote 0 (some 0), .arrived (some .stop), .looked 0,
    .closed 0, .started 2 5 (.replicate 16 1) [] [] 0, .wrote 1 (some 0), .arrived (some .stop),
    .looked 1, .stranger 1 "stop 00\n".toList, .connected 0 (some (.cast 1)), .sent 0,
    .connected 1 (some (.cast 1)), .sent 1, .served 0, .served 0, .heard 0, .heard 1]

theorem reused_fresh : Fresh reused := by
  unfold Fresh
  decide

theorem reused_unguessed : Unguessed reused := by
  intro i line bytes member minted
  have words : words line = ["stop".toList, "00".toList] := by
    have same : i = 1 ∧ line = "stop 00\n".toList := by simpa [reused] using member
    rw [same.2]
    decide
  rw [words]
  intro same
  have length := congrArg List.length (Option.some.inj same)
  rw [mintToken, Hex.encode_length, Vector.length_toList] at length
  cases length

theorem stopped_by_reader_reused : ∃ w,
    Halting.final (step (fun _ => [])) World.empty reused = some w ∧ w.stops = [⟨1, some 1⟩] ∧
      (w.stops.map Stop.client).Nodup := by
  have run : (Halting.final (step (fun _ => [])) World.empty reused).map World.stops =
      some [⟨1, some 1⟩] := by decide
  obtain ⟨w, ended, stops⟩ := Option.map_eq_some_iff.mp run
  exact ⟨w, ended, stops,
    (stopped_by_reader (fun _ => []) reused reused_fresh reused_unguessed w ended).2⟩

section Answering

theorem parseResponse_plain (body : List Char) (plain : body.any isLineEnd = false) :
    parseResponse (formatOk body) = .ok (.ok body) :=
  parseResponse_formatOk body (fun c member =>
    Bool.eq_false_iff.mpr (List.any_eq_false.mp plain c member))

def told : Published Rate → Response
  | .poisoned => .err Denial.badRequest.reason
  | .current none => .ok beforeFirst
  | .current (some snapshot) => .ok (snapshot.toFields oneDecimal)

theorem parseResponse_status (published : Published Rate) :
    parseResponse (status oneDecimal published) = .ok (told oneDecimal published) := by
  cases published with
  | poisoned => exact parseResponse_denial _
  | current shown =>
      cases shown with
      | none => exact parseResponse_plain beforeFirst (by decide)
      | some snapshot => exact parseResponse_formatOk _ (toFields_clean oneDecimal snapshot)

def ShowedThen (events : List (Event Rate)) (i k : Nat) (published : Published Rate) : Prop :=
  ∃ front place back before one, events = front ++ .served place :: back ∧
    Halting.final (step oneDecimal) World.empty front = some before ∧
    before.asked[place]? = some one ∧ one.cast = i ∧ one.client = k ∧ Shows i front published

variable {oneDecimal} {w next : World Rate} {event : Event Rate} {events : List (Event Rate)}

theorem reply_readings (w : World Rate) (k : Nat) (line : List Char) :
    (w.reply k line).readings = w.readings := by
  unfold World.reply
  split
  · split <;> rfl
  · rfl

theorem serveAt_readings (w : World Rate) (cast : Cast Rate) (i : Nat) (client : Option Nat)
    (line : List Char) :
    (serveAt oneDecimal w cast i client line).1.readings = w.readings := by
  unfold World.serveAt
  dsimp only
  split <;> rfl

theorem readings_act (acted : act oneDecimal w event = some next) :
    next.readings = w.readings ∨ ∃ place one cast, event = .served place ∧
      w.asked[place]? = some one ∧ w.casts[one.cast]? = some cast ∧
      next.readings = w.readings ++ [⟨one.cast, one.client, cast.published⟩] := by
  cases event with
  | served place =>
      obtain ⟨one, asked, acted⟩ := Option.bind_eq_some_iff.mp acted
      obtain ⟨cast, here, acted⟩ := Option.bind_eq_some_iff.mp acted
      split at acted
      · obtain rfl := Option.some.inj acted
        exact .inr ⟨place, one, cast, rfl, asked, here,
          (reply_readings _ _ _).trans (serveAt_readings _ _ _ _ _)⟩
      · cases acted
  | _ =>
      refine .inl ?_
      simp only [act, Option.bind_eq_bind, Option.bind_eq_some_iff] at acted
      grind [serveAt_readings, World.turn]

theorem ShowedThen.later {i k : Nat} {published : Published Rate}
    (showed : ShowedThen oneDecimal events i k published) (event : Event Rate) :
    ShowedThen oneDecimal (events ++ [event]) i k published := by
  obtain ⟨front, place, back, before, one, rfl, rest⟩ := showed
  exact ⟨front, place, back ++ [event], before, one, by simp, rest⟩

theorem readings_showed (ended : Halting.final (step oneDecimal) World.empty events = some w) :
    ∀ i k published, ⟨i, k, published⟩ ∈ w.readings → ShowedThen oneDecimal events i k
      published := by
  refine Halting.final_induction (step oneDecimal) (fun events w =>
    ∀ i k published, ⟨i, k, published⟩ ∈ w.readings → ShowedThen oneDecimal events i k published)
    (fun _ _ _ member => by cases member) ?_ events ended
  intro front event before after out reached taken showed i k published member
  rcases readings_act (acted_of_step taken) with same | ⟨place, one, cast, rfl, asked, here, more⟩
  · rw [same] at member
    exact (showed i k published member).later event
  · rw [more] at member
    rcases List.mem_append.mp member with old | new
    · exact (showed i k published old).later _
    · obtain ⟨rfl, rfl, rfl⟩ := Reading.mk.inj (List.mem_singleton.mp new)
      exact ⟨front, place, [], before, one, rfl, reached, asked, rfl, rfl,
        shows_final reached _ cast here⟩

variable (oneDecimal) in
/-- What a cast can answer to a request of its own client. -/
def Answers (events : List (Event Rate)) (w : World Rate) (i k : Nat) (req : Request)
    (response : Response) : Prop :=
  (req = .stop ∧ response = .ok stopping ∧ ⟨i, some k⟩ ∈ w.stops) ∨
  (req = .status ∧ ∃ published, ShowedThen oneDecimal events i k published ∧
    response = told oneDecimal published)

end Answering

/-- With tokens that are minted once and not guessed, whoever has the ports: what a client is
answered by a cast is that it is not authorised, and then it has not read that cast's record; or it
has, and then the cast was told to stop, or it is what the cast showed when it served the client's
line. -/
theorem answered_truly {Rate : Type} (oneDecimal : Rate → List Char) (events : List (Event Rate))
    (fresh : Fresh events) (unguessed : Unguessed events) (w : World Rate)
    (ended : Halting.final (step oneDecimal) World.empty events = some w)
    (k i : Nat) (client : Client) (response : Response) (here : w.clients[k]? = some client)
    (peer : client.peer = some (.cast i))
    (answered : client.phase = .finished (.talked (.answered response))) :
    ∃ cast req, w.casts[i]? = some cast ∧ client.req = some req ∧
      ((¬ client.ReadOf cast ∧ response = .err Denial.unauthorised.reason) ∨
        (client.ReadOf cast ∧ Answers oneDecimal events w i k req response)) := by
  have inv := inv_final unguessed ended
  have sound := inv.sound k client here
  obtain ⟨line, said, parsed⟩ := sound.ended i response peer answered
  rcases said with rfl | ⟨seen, req, read, asks, record, at_, truth⟩
  · have empty : ∃ unreadable, parseResponse [] = .error unreadable := ⟨_, rfl⟩
    obtain ⟨unreadable, refused⟩ := empty
    cases refused.symm.trans parsed
  obtain ⟨cast, there, rfl⟩ := cast_of_record at_
  refine ⟨cast, req, there, asks, ?_⟩
  split at truth
  · rename_i own
    refine .inr ⟨⟨seen, read,
      known_own (tokens_apart fresh ended) at_ (sound.seen seen read) own⟩, ?_⟩
    rcases truth with ⟨stop, rfl, told⟩ | ⟨status, published, among, rfl⟩
    · rw [parseResponse_plain stopping (by decide)] at parsed
      exact .inl ⟨stop, (Except.ok.inj parsed).symm, told⟩
    · rw [parseResponse_status] at parsed
      exact .inr ⟨status, published, readings_showed ended i k published among,
        (Except.ok.inj parsed).symm⟩
  · rename_i apart
    subst truth
    rw [parseResponse_denial] at parsed
    refine .inl ⟨?_, (Except.ok.inj parsed).symm⟩
    rintro ⟨other, same, eq⟩
    obtain rfl := Option.some.inj (read.symm.trans same)
    exact apart (by rw [eq])

theorem answered_truly_reused : ∃ w client cast,
    Halting.final (step (fun _ => [])) World.empty reused = some w ∧ w.clients[0]? = some client ∧
      w.casts[1]? = some cast ∧ ¬ client.ReadOf cast := by
  have run : (Halting.final (step (fun _ => [])) World.empty reused).map
      (fun w => (w.clients[0]?).map (fun client => (client.peer, client.phase))) =
      some (some (some (.cast 1),
        .finished (.talked (.answered (.err Denial.unauthorised.reason))))) := by decide
  obtain ⟨w, ended, shown⟩ := Option.map_eq_some_iff.mp run
  obtain ⟨client, here, same⟩ := Option.map_eq_some_iff.mp shown
  obtain ⟨peer, phase⟩ := Prod.mk.inj same
  obtain ⟨cast, req, there, asks, answer⟩ := answered_truly (fun _ => []) reused reused_fresh
    reused_unguessed w ended 0 1 client _ here peer phase
  refine ⟨w, client, cast, ended, here, there, ?_⟩
  rcases answer with ⟨stranger, -⟩ | ⟨-, ⟨-, differs, -⟩ | ⟨-, published, -, differs⟩⟩
  · exact stranger
  · cases differs
  · cases published with
    | poisoned => exact absurd (Response.err.inj differs) (by decide)
    | current shown => cases shown <;> cases differs

end Endpoint

end Castr.Sender.Control

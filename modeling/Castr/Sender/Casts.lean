import Castr.Sender.Endpoint

/-! What a run makes of the casts: each keeps the token that was minted for it, and shows what it
has published last. -/

namespace Castr.Sender.Control

open Castr.Lib Castr.Lib.Text

namespace Endpoint

open World

variable {Rate : Type} (oneDecimal : Rate → List Char)

def World.records (w : World Rate) : List Record := w.casts.map Cast.record

section Casts

def Event.casts (casts : List (Cast Rate)) : Event Rate → List (Cast Rate)
  | .started pid port bytes display address now =>
      casts ++ [⟨⟨pid, port, mintToken bytes, display, address, now⟩, true, .current none⟩]
  | .published i snapshot => casts.modify i (fun cast => cast.publish snapshot)
  | .panicked i => casts.modify i Cast.panic
  | .closed i => casts.modify i Cast.close
  | _ => casts

variable {oneDecimal} {w next : World Rate} {event : Event Rate} {events : List (Event Rate)}

theorem modify_here {casts : List (Cast Rate)} {i : Nat} {cast : Cast Rate}
    (here : casts[i]? = some cast) (change : Cast Rate → Cast Rate) :
    casts.modify i change = casts.set i (change cast) := by
  rw [List.modify_eq_set_getElem?, here]
  rfl

theorem reply_casts (w : World Rate) (k : Nat) (line : List Char) :
    (w.reply k line).casts = w.casts := by
  unfold World.reply
  split
  · split <;> rfl
  · rfl

theorem serveAt_casts (w : World Rate) (cast : Cast Rate) (i : Nat) (client : Option Nat)
    (line : List Char) : (serveAt oneDecimal w cast i client line).1.casts = w.casts := by
  unfold World.serveAt
  dsimp only
  split <;> rfl

theorem casts_act (acted : act oneDecimal w event = some next) :
    next.casts = event.casts w.casts := by
  cases event with
  | published i snapshot =>
      obtain ⟨cast, here, acted⟩ := Option.bind_eq_some_iff.mp acted
      obtain rfl := Option.some.inj acted
      exact (modify_here here (fun cast => cast.publish snapshot)).symm
  | panicked i =>
      obtain ⟨cast, here, acted⟩ := Option.bind_eq_some_iff.mp acted
      obtain rfl := Option.some.inj acted
      exact (modify_here here _).symm
  | closed i =>
      obtain ⟨cast, here, acted⟩ := Option.bind_eq_some_iff.mp acted
      obtain rfl := Option.some.inj acted
      exact (modify_here here _).symm
  | served place =>
      obtain ⟨one, asked, acted⟩ := Option.bind_eq_some_iff.mp acted
      obtain ⟨cast, here, acted⟩ := Option.bind_eq_some_iff.mp acted
      split at acted
      · obtain rfl := Option.some.inj acted
        exact (reply_casts _ _ _).trans (serveAt_casts _ _ _ _ _)
      · cases acted
  | _ =>
      simp only [act, Option.bind_eq_bind, Option.bind_eq_some_iff] at acted
      grind [Event.casts, serveAt_casts, World.turn]

theorem acted_of_step {out : Unit} (taken : step oneDecimal w event = some (next, out)) :
    act oneDecimal w event = some next := by
  obtain ⟨after, acted, same⟩ := Option.map_eq_some_iff.mp taken
  rw [acted, (Prod.mk.inj same).1]

theorem map_modify {casts : List (Cast Rate)} {Part : Type} (part : Cast Rate → Part) (i : Nat)
    (change : Cast Rate → Cast Rate) (same : ∀ cast, part (change cast) = part cast) :
    (casts.modify i change).map part = casts.map part := by
  refine List.ext_getElem? (fun j => ?_)
  rw [List.getElem?_map, List.getElem?_map, List.getElem?_modify, Option.map_eq_map, Option.map_map]
  refine Option.map_congr (fun cast _ => ?_)
  rw [Function.comp_apply]
  split
  · exact same cast
  · rfl

theorem tokens_minted (ended : Halting.final (step oneDecimal) World.empty events = some w) :
    w.records.map Record.token = (events.filterMap Event.minted).map mintToken := by
  refine Halting.final_induction (step oneDecimal) (fun events w =>
    w.records.map Record.token = (events.filterMap Event.minted).map mintToken) rfl ?_ events ended
  intro front event before after out _ taken same
  rw [List.filterMap_append, List.map_append, ← same, World.records, World.records,
    casts_act (acted_of_step taken), List.map_map, List.map_map]
  cases event with
  | started pid port bytes display address now => exact List.map_append
  | published i snapshot =>
      refine (map_modify _ i _ (fun cast => ?_)).trans (List.append_nil _).symm
      rw [Function.comp_apply, Cast.publish_record]
      rfl
  | panicked i => exact (map_modify _ i Cast.panic (fun _ => rfl)).trans (List.append_nil _).symm
  | closed i => exact (map_modify _ i Cast.close (fun _ => rfl)).trans (List.append_nil _).symm
  | _ => exact (List.append_nil _).symm

theorem tokens_apart (fresh : Fresh events)
    (ended : Halting.final (step oneDecimal) World.empty events = some w) :
    (w.records.map Record.token).Nodup := by
  rw [tokens_minted ended]
  exact fresh.map mintToken_injective

theorem unguessed_front {front back : List (Event Rate)} (unguessed : Unguessed (front ++ back)) :
    Unguessed front := by
  intro i line bytes member minted
  refine unguessed i line bytes (List.mem_append_left _ member) ?_
  rw [List.filterMap_append, List.getElem?_append_left (List.getElem?_eq_some_iff.mp minted).1]
  exact minted

theorem token_unguessed {front back : List (Event Rate)} {i : Nat} {line : List Char}
    {cast : Cast Rate} (unguessed : Unguessed (front ++ .stranger i line :: back))
    (reached : Halting.final (step oneDecimal) World.empty front = some w)
    (here : w.casts[i]? = some cast) : (words line)[1]? ≠ some cast.record.token := by
  have token : (w.records.map Record.token)[i]? = some cast.record.token := by
    rw [List.getElem?_map, World.records, List.getElem?_map, here]
    rfl
  rw [tokens_minted reached, List.getElem?_map] at token
  obtain ⟨bytes, minted, same⟩ := Option.map_eq_some_iff.mp token
  rw [← same]
  refine unguessed i line bytes (by simp) ?_
  rw [List.filterMap_append, List.getElem?_append_left (List.getElem?_eq_some_iff.mp minted).1]
  exact minted

end Casts

section Showing

/-- What a cast has to show: what it published last, or nothing yet, or nothing any more. -/
def Shows (i : Nat) (events : List (Event Rate)) : Published Rate → Prop
  | .poisoned => .panicked i ∈ events
  | .current none => .panicked i ∉ events ∧ ∀ snapshot, .published i snapshot ∉ events
  | .current (some snapshot) => .panicked i ∉ events ∧ ∃ front back,
      events = front ++ .published i snapshot :: back ∧ ∀ other, .published i other ∉ back

def Event.shower : Event Rate → Option Nat
  | .published i _ => some i
  | .panicked i => some i
  | _ => none

variable {oneDecimal} {w : World Rate} {i : Nat} {front events : List (Event Rate)}

theorem shows_unpanicked {shown : Option (Snapshot Rate)} (shows : Shows i front (.current shown)) :
    .panicked i ∉ front := by
  cases shown with
  | none => exact shows.1
  | some snapshot => exact shows.1

theorem shows_other {event : Event Rate} (other : event.shower ≠ some i)
    {published : Published Rate}
    (shows : Shows i front published) : Shows i (front ++ [event]) published := by
  have calm (free : .panicked i ∉ front) : .panicked i ∉ front ++ [event] := by
    rw [List.mem_append, List.mem_singleton, not_or]
    refine ⟨free, ?_⟩
    rintro rfl
    exact other rfl
  have silent (snapshot : Snapshot Rate) : .published i snapshot ∉ [event] := by
    rw [List.mem_singleton]
    rintro rfl
    exact other rfl
  cases published with
  | poisoned => exact List.mem_append_left _ shows
  | current shown =>
      cases shown with
      | none =>
          refine ⟨calm shows.1, fun snapshot => ?_⟩
          rw [List.mem_append, not_or]
          exact ⟨shows.2 snapshot, silent snapshot⟩
      | some snapshot =>
          obtain ⟨free, early, late, rfl, last⟩ := shows
          refine ⟨calm free, early, late ++ [event], by simp, fun other => ?_⟩
          rw [List.mem_append, not_or]
          exact ⟨last other, silent other⟩

theorem shows_published {cast : Cast Rate} (shows : Shows i front cast.published)
    (snapshot : Snapshot Rate) :
    Shows i (front ++ [.published i snapshot]) (cast.publish snapshot).published := by
  unfold Cast.publish
  split
  · rename_i dead
    rw [dead] at shows ⊢
    exact List.mem_append_left _ shows
  · rename_i shown live
    rw [live] at shows
    refine ⟨?_, front, [], rfl, fun _ => List.not_mem_nil⟩
    rw [List.mem_append, not_or]
    exact ⟨shows_unpanicked shows, by simp⟩

theorem shower_started (ended : Halting.final (step oneDecimal) World.empty events = some w) :
    ∀ event ∈ events, ∀ i, event.shower = some i → i < w.casts.length := by
  refine Halting.final_induction (step oneDecimal)
    (fun events w => ∀ event ∈ events, ∀ i, event.shower = some i → i < w.casts.length)
    (fun _ none_ => by cases none_) ?_ events ended
  intro front event before after out _ taken early other member i shower
  have acted := acted_of_step taken
  have longer : before.casts.length ≤ after.casts.length := by
    rw [casts_act acted]
    cases event <;> simp [Event.casts]
  refine Nat.lt_of_lt_of_le ?_ longer
  rcases List.mem_append.mp member with old | new
  · exact early other old i shower
  · obtain rfl := List.mem_singleton.mp new
    cases other with
    | published j snapshot =>
        obtain rfl := Option.some.inj shower
        obtain ⟨cast, here, -⟩ := Option.bind_eq_some_iff.mp acted
        exact (List.getElem?_eq_some_iff.mp here).1
    | panicked j =>
        obtain rfl := Option.some.inj shower
        obtain ⟨cast, here, -⟩ := Option.bind_eq_some_iff.mp acted
        exact (List.getElem?_eq_some_iff.mp here).1
    | _ => cases shower

theorem shows_unstarted (unheard : ∀ event ∈ front, event.shower ≠ some i) :
    Shows i front (.current none) :=
  ⟨fun member => unheard _ member rfl, fun _ member => unheard _ member rfl⟩

/-- What a cast shows is read off the run. -/
theorem shows_final (ended : Halting.final (step oneDecimal) World.empty events = some w) :
    ∀ i cast, w.casts[i]? = some cast → Shows i events cast.published := by
  refine Halting.final_induction (step oneDecimal) (fun events w =>
    ∀ i cast, w.casts[i]? = some cast → Shows i events cast.published)
    (fun i cast here => by simp [World.empty] at here) ?_ events ended
  intro front event before after out reached taken shows i cast here
  rw [casts_act (acted_of_step taken)] at here
  cases event with
  | started pid port bytes display address now =>
      rw [Event.casts, List.getElem?_append] at here
      split at here
      · exact shows_other (by simp [Event.shower]) (shows i cast here)
      · rename_i beyond
        rw [List.getElem?_singleton] at here
        split at here
        · obtain rfl := Option.some.inj here
          exact shows_other (by simp [Event.shower]) (shows_unstarted (fun other member shower =>
            beyond (shower_started reached other member i shower)))
        · cases here
  | published j snapshot =>
      rw [Event.casts, List.getElem?_modify] at here
      obtain ⟨old, there, rfl⟩ := Option.map_eq_some_iff.mp here
      split
      · rename_i same
        subst same
        exact shows_published (shows j old there) snapshot
      · rename_i apart
        exact shows_other (by simpa [Event.shower] using apart) (shows i old there)
  | panicked j =>
      rw [Event.casts, List.getElem?_modify] at here
      obtain ⟨old, there, rfl⟩ := Option.map_eq_some_iff.mp here
      split
      · rename_i same
        subst same
        exact List.mem_append_right _ List.mem_cons_self
      · rename_i apart
        exact shows_other (by simpa [Event.shower] using apart) (shows i old there)
  | closed j =>
      rw [Event.casts, List.getElem?_modify] at here
      obtain ⟨old, there, rfl⟩ := Option.map_eq_some_iff.mp here
      refine shows_other (by simp [Event.shower]) ?_
      split
      · exact shows i old there
      · exact shows i old there
  | _ => exact shows_other (by simp [Event.shower]) (shows i cast here)

end Showing

end Endpoint

end Castr.Sender.Control

import Castr.Lib.Casing
import Castr.Lib.Lines
import Castr.Lib.Replacing
import Castr.Lib.Run

/-! The peers that have completed pairing, in memory and in their file, which is overwritten in its
place. A file that was cut inside a character cannot be read, and counts as an empty one. -/

namespace Castr.Miracast.Peers

open Castr.Lib.Casing
open Castr.Lib.Replacing
open Castr.Lib.Run
open Castr.Lib.Text

abbrev Mac := List Char

def heading : List Char := "# Miracast peers that have completed pairing.".toList

structure PeerStore where
  macs : List Mac
  deriving DecidableEq, Repr

def peerOf (line : List Char) : Option Mac :=
  let line := trim line
  if line ≠ [] ∧ line.head? ≠ some '#' then some (lower line) else none

/-- The lines `remember` writes: the heading, and the peers with line ends between them and at
their end. -/
def body (macs : List Mac) : List Char := unlines (heading :: macs)

namespace PeerStore

def load (file : List Char) : PeerStore := ⟨(lines file).filterMap peerOf⟩

def contains (store : PeerStore) (mac : Mac) : Bool := lower mac ∈ store.macs

end PeerStore

/-- The store of a running sink, and the file beside it. -/
structure Kept where
  store : PeerStore
  file : List Char

inductive Happening where
  /-- A peer completed pairing, and the file is written as far as that goes. -/
  | remember (mac : Mac) (written : Overwrite)
  /-- The sink serves again, from the file. -/
  | reload

namespace Kept

def remember (kept : Kept) (mac : Mac) (written : Overwrite) : Kept :=
  if kept.store.contains mac then kept
  else
    let macs := kept.store.macs ++ [lower mac]
    ⟨⟨macs⟩, overwrite kept.file (body macs) written⟩

def step (kept : Kept) : Happening → Kept × Unit
  | .remember mac written => (kept.remember mac written, ())
  | .reload => (⟨.load kept.file, kept.file⟩, ())

end Kept

structure Stored (mac : Mac) : Prop where
  solid : ∀ c ∈ mac, isSpace c = false
  plain : mac.head? ≠ some '#'
  nonempty : mac ≠ []
  low : lower mac = mac

structure Word (mac : Mac) : Prop where
  solid : ∀ c ∈ mac, isSpace c = false
  plain : mac.head? ≠ some '#'
  nonempty : mac ≠ []

theorem Word.stored {mac : Mac} (word : Word mac) : Stored (lower mac) where
  solid := lower_solid word.solid
  plain := by
    cases mac with
    | nil => exact absurd rfl word.nonempty
    | cons c rest =>
        intro same
        have hash : c.toLower = '#' := Option.some.inj same
        rcases toLower_code c with ⟨low, _, moved⟩ | ⟨_, kept⟩
        · rw [hash] at moved
          have code : '#'.toNat = 35 := rfl
          omega
        · exact word.plain (by rw [← hash, kept]; rfl)
  nonempty := by
    intro none
    exact word.nonempty (List.map_eq_nil_iff.mp none)
  low := lower_lower mac

theorem solid_whole {text : List Char} (solid : ∀ c ∈ text, isSpace c = false) : Whole text :=
  ⟨fun inside => absurd (solid _ inside) (by decide),
    fun inside => absurd (solid _ inside) (by decide)⟩

theorem peerOf_stored {mac : Mac} (stored : Stored mac) : peerOf mac = some mac := by
  rw [peerOf, trim_word mac stored.solid, if_pos ⟨stored.nonempty, stored.plain⟩, stored.low]

theorem peerOf_heading : peerOf heading = none := by decide

theorem heading_whole : Whole heading := ⟨by decide, by decide⟩

theorem Stored.of_begun {piece mac : Mac} (stored : Stored mac) (within : piece <+: mac)
    (some : piece ≠ []) : Stored piece where
  solid := fun c member => stored.solid c (within.subset member)
  plain := by
    obtain ⟨rest, rfl⟩ := within
    cases piece with
    | nil => exact absurd rfl some
    | cons c piece => exact stored.plain
  nonempty := some
  low := by
    obtain ⟨rest, rfl⟩ := within
    have low := stored.low
    rw [lower, List.map_append] at low
    exact (List.append_inj low (List.length_map _)).1

theorem peerOf_heading_cut {piece : List Char} (within : piece <+: heading) :
    peerOf piece = none := by
  have all : ∀ kept ≤ heading.length, peerOf (heading.take kept) = none := by decide
  rw [List.prefix_iff_eq_take.mp within]
  exact all _ within.length_le

theorem peerOf_piece {piece mac : Mac} (stored : Stored mac) (within : piece <+: mac) :
    peerOf piece = if piece = [] then none else some piece := by
  split
  · rename_i none
    rw [none]
    rfl
  · rename_i some
    exact peerOf_stored (stored.of_begun within some)

theorem filterMap_peers (macs : List Mac) (stored : ∀ mac ∈ macs, Stored mac) :
    macs.filterMap peerOf = macs := by
  induction macs with
  | nil => rfl
  | cons mac macs ih =>
      rw [List.filterMap_cons_some (peerOf_stored (stored mac List.mem_cons_self)),
        ih (fun other member => stored other (List.mem_cons_of_mem mac member))]

theorem body_whole (macs : List Mac) (stored : ∀ mac ∈ macs, Stored mac) :
    ∀ line ∈ heading :: macs, Whole line :=
  List.forall_mem_cons.mpr ⟨heading_whole, fun mac member => solid_whole (stored mac member).solid⟩

theorem load_body (macs : List Mac) (stored : ∀ mac ∈ macs, Stored mac) :
    PeerStore.load (body macs) = ⟨macs⟩ := by
  rw [PeerStore.load, body, lines_unlines _ (body_whole macs stored),
    List.filterMap_cons_none peerOf_heading, filterMap_peers macs stored]

theorem load_cut (macs : List Mac) (stored : ∀ mac ∈ macs, Stored mac) {file : List Char}
    (within : file <+: body macs) :
    ∀ peer ∈ (PeerStore.load file).macs, Stored peer ∧ ∃ mac ∈ macs, peer <+: mac := by
  obtain ⟨front, begun, found⟩ := lines_cut (heading :: macs) (body_whole macs stored) within
  have read (line piece : List Char) (known : line ∈ heading :: macs) (early : piece <+: line)
      (peer : Mac) (named : peerOf piece = some peer) :
      Stored peer ∧ ∃ mac ∈ macs, peer <+: mac := by
    rcases List.mem_cons.mp known with rfl | member
    · rw [peerOf_heading_cut early] at named
      cases named
    · rw [peerOf_piece (stored line member) early] at named
      split at named
      · cases named
      · rename_i some
        cases named
        exact ⟨(stored line member).of_begun early some, line, member, early⟩
  intro peer member
  obtain ⟨line, inside, named⟩ := List.mem_filterMap.mp member
  rcases found with all | ⟨next, piece, more, early, split⟩
  · rw [all] at inside
    exact read line line (begun.subset inside) List.prefix_rfl peer named
  · rw [split] at inside
    rcases List.mem_append.mp inside with before | last
    · exact read line line (begun.subset before) List.prefix_rfl peer named
    · rw [List.mem_singleton.mp last] at named
      exact read next piece (more.subset (by simp)) early peer named

def remembered (happenings : List Happening) : List Mac :=
  happenings.filterMap (fun happening =>
    match happening with
    | .remember mac _ => some (lower mac)
    | .reload => none)

def Happening.Sound : Happening → Prop
  | .remember mac _ => Word mac
  | .reload => True

/-- Its file was written, or at least not cut short. -/
def Happening.saved : Happening → Bool
  | .remember _ written => written = .done
  | .reload => true

def Happening.uncut : Happening → Bool
  | .remember _ written => written = .done ∨ written = .unopened
  | .reload => true

/-- Addresses as they are stored, each the beginning of one that has paired. -/
structure Begun (macs known : List Mac) : Prop where
  stored : ∀ mac ∈ macs, Stored mac
  known : ∀ mac ∈ macs, ∃ paired ∈ known, mac <+: paired

structure Listed (macs known : List Mac) : Prop where
  once : macs.Nodup
  known : ∀ mac ∈ macs, mac ∈ known

/-- The memory and the file, by what has happened: no file cut short, or every one written. -/
structure InStep (kept : Kept) (known : List Mac) (uncut saved : Bool) : Prop where
  memory : Begun kept.store.macs known
  file : Begun (PeerStore.load kept.file).macs known
  listed : uncut = true → Listed kept.store.macs known
  filed : uncut = true → Listed (PeerStore.load kept.file).macs known
  synced : saved = true → PeerStore.load kept.file = kept.store
  whole : saved = true → ∀ mac ∈ known, mac ∈ kept.store.macs

theorem Begun.more {macs known : List Mac} (begun : Begun macs known) (later : List Mac) :
    Begun macs (known ++ later) where
  stored := begun.stored
  known := by
    intro mac member
    obtain ⟨paired, there, within⟩ := begun.known mac member
    exact ⟨paired, List.mem_append_left _ there, within⟩

theorem Begun.snoc {macs known : List Mac} (begun : Begun macs known) {mac : Mac}
    (stored : Stored mac) : Begun (macs ++ [mac]) (known ++ [mac]) where
  stored := List.forall_mem_append.mpr ⟨begun.stored, by simpa using stored⟩
  known := List.forall_mem_append.mpr ⟨(begun.more [mac]).known, by simp⟩

theorem Listed.more {macs known : List Mac} (listed : Listed macs known) (later : List Mac) :
    Listed macs (known ++ later) :=
  ⟨listed.once, fun mac member => List.mem_append_left _ (listed.known mac member)⟩

theorem Listed.snoc {macs known : List Mac} (listed : Listed macs known) {mac : Mac}
    (fresh : mac ∉ macs) : Listed (macs ++ [mac]) (known ++ [mac]) where
  once := by
    refine List.nodup_append.mpr ⟨listed.once, by simp, fun other member mac' last => ?_⟩
    rw [List.mem_singleton.mp last]
    exact fun same => fresh (same ▸ member)
  known := List.forall_mem_append.mpr ⟨(listed.more [mac]).known, by simp⟩

theorem InStep.again {kept : Kept} {known : List Mac} {uncut saved : Bool}
    (inStep : InStep kept known uncut saved) {mac : Mac} (there : mac ∈ kept.store.macs)
    (whole written : Bool) : InStep kept (known ++ [mac]) (uncut && whole) (saved && written) where
  memory := inStep.memory.more _
  file := inStep.file.more _
  listed := fun all => (inStep.listed (Bool.and_eq_true_iff.mp all).1).more _
  filed := fun all => (inStep.filed (Bool.and_eq_true_iff.mp all).1).more _
  synced := fun all => inStep.synced (Bool.and_eq_true_iff.mp all).1
  whole := fun all => List.forall_mem_append.mpr
    ⟨inStep.whole (Bool.and_eq_true_iff.mp all).1, by simpa using there⟩

theorem remember_inStep {kept : Kept} {known : List Mac} {uncut saved : Bool}
    (inStep : InStep kept known uncut saved) {mac : Mac} (word : Word mac) (written : Overwrite) :
    InStep (kept.remember mac written) (known ++ [lower mac])
      (uncut && (Happening.remember mac written).uncut)
      (saved && (Happening.remember mac written).saved) := by
  rw [Kept.remember]
  split
  · rename_i before
    exact inStep.again (of_decide_eq_true before) _ _
  · rename_i fresh
    have absent : lower mac ∉ kept.store.macs := fun there => fresh (decide_eq_true there)
    have memory := inStep.memory.snoc word.stored
    have listed (all : (uncut && (Happening.remember mac written).uncut) = true) :
        Listed (kept.store.macs ++ [lower mac]) (known ++ [lower mac]) :=
      (inStep.listed (Bool.and_eq_true_iff.mp all).1).snoc absent
    have read := load_body _ memory.stored
    have whole (all : saved = true) : ∀ other ∈ known ++ [lower mac],
        other ∈ kept.store.macs ++ [lower mac] := by
      refine List.forall_mem_append.mpr ⟨fun other member => ?_, by simp⟩
      exact List.mem_append_left _ (inStep.whole all other member)
    cases written with
    | unopened =>
        refine ⟨memory, inStep.file.more _, listed, fun all => ?_, fun all => ?_, fun all => ?_⟩
        · exact (inStep.filed (Bool.and_eq_true_iff.mp all).1).more _
        · exact absurd (Bool.and_eq_true_iff.mp all).2 (by simp [Happening.saved])
        · exact absurd (Bool.and_eq_true_iff.mp all).2 (by simp [Happening.saved])
    | cut count =>
        have file : Begun (PeerStore.load ((body (kept.store.macs ++ [lower mac])).take count)).macs
            (known ++ [lower mac]) := by
          have cut := load_cut _ memory.stored (List.take_prefix count _)
          refine ⟨fun peer member => (cut peer member).1, fun peer member => ?_⟩
          obtain ⟨other, there, early⟩ := (cut peer member).2
          obtain ⟨paired, before, within⟩ := memory.known other there
          exact ⟨paired, before, early.trans within⟩
        refine ⟨memory, file, listed, fun all => ?_, fun all => ?_, fun all => ?_⟩
        · exact absurd (Bool.and_eq_true_iff.mp all).2 (by simp [Happening.uncut])
        · exact absurd (Bool.and_eq_true_iff.mp all).2 (by simp [Happening.saved])
        · exact absurd (Bool.and_eq_true_iff.mp all).2 (by simp [Happening.saved])
    | done =>
        refine ⟨memory, ?_, listed, fun all => ?_, fun _ => read, fun all => ?_⟩
        · dsimp only [overwrite]
          rw [read]
          exact memory
        · dsimp only [overwrite]
          rw [read]
          exact listed all
        · exact whole (Bool.and_eq_true_iff.mp all).1

theorem run_inStep (happenings : List Happening)
    (sound : ∀ happening ∈ happenings, happening.Sound) :
    InStep (final Kept.step ⟨.load [], []⟩ happenings) (remembered happenings)
      (happenings.all Happening.uncut) (happenings.all Happening.saved) := by
  have none : Begun [] [] := ⟨by simp, by simp⟩
  have nothing : Listed [] [] := ⟨by simp, by simp⟩
  refine final_induction Kept.step ⟨.load [], []⟩ happenings
    (fun done kept =>
      InStep kept (remembered done) (done.all Happening.uncut) (done.all Happening.saved))
    ⟨none, none, fun _ => nothing, fun _ => nothing, fun _ => rfl, by simp [remembered]⟩ ?_
  intro front happening back split now
  have sounds := sound happening (by simp [split])
  rw [remembered, List.filterMap_append, List.all_append, List.all_append]
  cases happening with
  | remember mac written =>
      have uncut : [Happening.remember mac written].all Happening.uncut =
          (Happening.remember mac written).uncut := Bool.and_true _
      have saved : [Happening.remember mac written].all Happening.saved =
          (Happening.remember mac written).saved := Bool.and_true _
      rw [uncut, saved]
      exact remember_inStep now sounds written
  | reload =>
      rw [List.filterMap_cons_none rfl, List.filterMap_nil, List.append_nil]
      refine ⟨now.file, now.file, fun all => ?_, fun all => ?_, fun _ => rfl, fun all => ?_⟩
      · exact now.filed (Bool.and_eq_true_iff.mp all).1
      · exact now.filed (Bool.and_eq_true_iff.mp all).1
      · have before := (Bool.and_eq_true_iff.mp all).1
        dsimp only [Kept.step]
        rw [now.synced before]
        exact now.whole before

/-- Whatever the order of pairings and restarts and wherever a write fails, the sink knows only
addresses that have paired, or what a cut left of them; if no file was cut short it knows none but
those that have paired, each once, and if no write failed all of them, in either case of letters. -/
theorem peers_kept (happenings : List Happening)
    (sound : ∀ happening ∈ happenings, happening.Sound) :
    (∀ mac, (final Kept.step ⟨.load [], []⟩ happenings).store.contains mac = true →
      ∃ paired ∈ remembered happenings, lower mac <+: paired) ∧
    (happenings.all Happening.uncut = true →
      (final Kept.step ⟨.load [], []⟩ happenings).store.macs.Nodup ∧
      ∀ mac, (final Kept.step ⟨.load [], []⟩ happenings).store.contains mac = true →
        lower mac ∈ remembered happenings) ∧
    (happenings.all Happening.saved = true → ∀ mac, lower mac ∈ remembered happenings →
      (final Kept.step ⟨.load [], []⟩ happenings).store.contains mac = true) := by
  have inStep := run_inStep happenings sound
  refine ⟨fun mac there => ?_, fun uncut => ⟨(inStep.listed uncut).once, fun mac there => ?_⟩,
    fun saved mac paired => ?_⟩
  · exact inStep.memory.known _ (of_decide_eq_true there)
  · exact (inStep.listed uncut).known _ (of_decide_eq_true there)
  · exact decide_eq_true (inStep.whole saved _ paired)

theorem word_small : Word "AA:01".toList where
  solid := by
    intro c member
    have all : "AA:01".toList.all (fun c => !isSpace c) = true := by decide
    simpa using List.all_eq_true.mp all c member
  plain := by decide
  nonempty := by decide

/-- A restart reads a peer that was written, and the beginning of one that was cut short. -/
theorem peers_kept_reloaded :
    (final Kept.step ⟨.load [], []⟩ [.remember "AA:01".toList .done, .reload]).store.contains
      "aa:01".toList = true ∧
    ∃ paired ∈ remembered [.remember "AA:01".toList (.cut 50), .reload],
      lower "aa:0".toList <+: paired :=
  ⟨(peers_kept [.remember "AA:01".toList .done, .reload]
    (List.forall_mem_cons.mpr ⟨word_small, by simp [Happening.Sound]⟩)).2.2 (by decide)
      "aa:01".toList (by decide),
    (peers_kept [.remember "AA:01".toList (.cut 50), .reload]
      (List.forall_mem_cons.mpr ⟨word_small, by simp [Happening.Sound]⟩)).1 "aa:0".toList
        (by decide)⟩

end Castr.Miracast.Peers

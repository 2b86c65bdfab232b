import Castr.Miracast.Device
import Castr.Miracast.Mailbox

/-! Bringing a group up: the commands of `one_group` up to the announcement of its interface. -/

namespace Castr.Miracast.P2p

open Castr.Lib.Run
open Castr.Lib.Sharing
open Castr.Lib.Text

namespace Command

end Command

inductive Failure where
  | io
  | noReply (command : String)
  | refused (command reply : String)
  | notOwner
  | noGroup
  deriving DecidableEq, Repr

abbrev Talk := ExceptT Failure (StateM Channel)

def channels : List UInt32 := [1, 6, 11]
def defaultChannel : UInt32 := 6

def channelToFreq (channel : UInt32) : UInt32 := 2407 + 5 * channel

/-- The frequency in the second column of a scan row. -/
def rowFrequency (row : List Char) : Option Nat :=
  ((row.splitOn '\t')[1]?).bind (fun field => number 10 (2 ^ 32) (trim field))

def inBand (freq : Nat) (channel : UInt32) : Bool :=
  freq - (channelToFreq channel).toNat ≤ 10 && (channelToFreq channel).toNat - freq ≤ 10

/-- One more network, counted on each channel it disturbs. -/
def tally (counts : List (UInt32 × Nat)) (freq : Nat) : List (UInt32 × Nat) :=
  counts.map (fun entry => (entry.1, if inBand freq entry.1 then entry.2 + 1 else entry.2))

def scanCounts (results : List Char) : List (UInt32 × Nat) :=
  (((lines results).drop 1).filterMap rowFrequency).foldl tally
    (channels.map (fun channel => (channel, 0)))

def quietest : List (UInt32 × Nat) → Option (UInt32 × Nat)
  | [] => none
  | entry :: entries =>
      match quietest entries with
      | none => some entry
      | some other => if entry.2 ≤ other.2 then some entry else some other

def chooseChannel (results : List Char) : UInt32 :=
  if (scanCounts results).all (fun entry => entry.2 = 0) then defaultChannel
  else ((quietest (scanCounts results)).map Prod.fst).getD defaultChannel

section Talking

-- whether the socket takes a command
variable (takes : String → Bool)

def ask (command : String) : Talk (Except Fault (List Char)) :=
  ExceptT.mk (fun channel =>
    (.ok (channel.request (takes command)).1, (channel.request (takes command)).2))

end Talking

section Channels

def disturbing (results : List Char) (channel : UInt32) : Nat :=
  (((lines results).drop 1).filterMap rowFrequency).countP (fun freq => inBand freq channel)

theorem tally_counts (freqs : List Nat) (known : List UInt32) (count : UInt32 → Nat) :
    freqs.foldl tally (known.map (fun channel => (channel, count channel))) =
      known.map (fun channel =>
        (channel, count channel + freqs.countP (fun freq => inBand freq channel))) := by
  induction freqs generalizing count with
  | nil => rfl
  | cons freq freqs ih =>
      have one : tally (known.map (fun channel => (channel, count channel))) freq =
          known.map (fun channel =>
            (channel, if inBand freq channel then count channel + 1 else count channel)) := by
        rw [tally, List.map_map]
        rfl
      rw [List.foldl_cons, one, ih]
      apply List.map_congr_left
      intro channel _
      cases inside : inBand freq channel with
      | true => simp [List.countP_cons_of_pos, inside, Nat.add_assoc, Nat.add_comm]
      | false => simp [List.countP_cons_of_neg, inside]

theorem scanCounts_eq (results : List Char) :
    scanCounts results = channels.map (fun channel => (channel, disturbing results channel)) := by
  rw [scanCounts, tally_counts]
  simp [disturbing]

theorem quietest_least (entries : List (UInt32 × Nat)) (entry : UInt32 × Nat)
    (found : quietest entries = some entry) :
    entry ∈ entries ∧ ∀ other ∈ entries, entry.2 ≤ other.2 := by
  induction entries generalizing entry with
  | nil => cases found
  | cons first entries ih =>
      rw [quietest] at found
      cases rest : quietest entries with
      | none =>
          rw [rest] at found
          cases found
          have alone : entries = [] := by
            cases entries with
            | nil => rfl
            | cons second entries =>
                rw [quietest] at rest
                cases later : quietest entries <;> rw [later] at rest
                · cases rest
                · dsimp only at rest
                  split at rest <;> cases rest
          simp [alone]
      | some other =>
          obtain ⟨member, least⟩ := ih other rest
          rw [rest] at found
          dsimp only at found
          split at found <;> cases found
          · rename_i less
            refine ⟨List.mem_cons_self, List.forall_mem_cons.mpr ⟨Nat.le_refl _, ?_⟩⟩
            exact fun next inside => Nat.le_trans less (least next inside)
          · rename_i more
            refine ⟨List.mem_cons_of_mem first member, List.forall_mem_cons.mpr ⟨?_, least⟩⟩
            omega

theorem quietest_some (entry : UInt32 × Nat) (entries : List (UInt32 × Nat)) :
    ∃ least, quietest (entry :: entries) = some least := by
  rw [quietest]
  cases quietest entries with
  | none => exact ⟨entry, rfl⟩
  | some other =>
      dsimp only
      split
      · exact ⟨entry, rfl⟩
      · exact ⟨other, rfl⟩

theorem chooseChannel_least (results : List Char) :
    chooseChannel results ∈ channels ∧
      ∀ other ∈ channels, disturbing results (chooseChannel results) ≤
        disturbing results other := by
  rw [chooseChannel]
  split
  · rename_i silent
    rw [scanCounts_eq, List.all_map, List.all_eq_true] at silent
    have none : disturbing results defaultChannel = 0 := by
      simpa using silent defaultChannel (by decide)
    refine ⟨by decide, fun other _ => ?_⟩
    rw [none]
    exact Nat.zero_le _
  · obtain ⟨least, found⟩ : ∃ least, quietest (scanCounts results) = some least := by
      rw [scanCounts_eq]
      exact quietest_some _ _
    have same := quietest_least _ _ found
    rw [scanCounts_eq] at same
    obtain ⟨channel, known, rfl⟩ := List.mem_map.mp same.1
    rw [found]
    exact ⟨known, fun other member => same.2 _ (List.mem_map.mpr ⟨other, member, rfl⟩)⟩

end Channels

section Announced

/-- Nothing is handed out between two moments. -/
def Quiet (start stop : Channel) : Prop := ∃ replies, Delivers start stop [] replies

theorem Quiet.refl (channel : Channel) : Quiet channel channel := ⟨[], .refl channel⟩

theorem Quiet.trans {start middle stop : Channel} (first : Quiet start middle)
    (second : Quiet middle stop) : Quiet start stop :=
  ⟨first.choose ++ second.choose, first.choose_spec.trans second.choose_spec⟩

/-- Talk that hands nothing out, and knows of no group. -/
def Keeps {α : Type} (talk : Talk α) : Prop :=
  ∀ channel, Quiet channel (talk.run channel).2 ∧ ∀ failure,
    (talk.run channel).1 = .error failure → failure ≠ .notOwner

variable (takes : String → Bool)

def Event.starts : Event → Bool
  | .groupStarted _ _ _ => true
  | _ => false

/-- The announcement that the outcome of a wait speaks of. -/
def Announces : Except Failure String → List Event → Prop
  | .ok interface, found => ∃ freq, found = [.groupStarted interface true freq]
  | .error .notOwner, found => ∃ interface freq, found = [.groupStarted interface false freq]
  | .error _, found => found = []

def Answer.fails : Answer → Bool
  | .event (.error _) => true
  | _ => false

end Announced

end Castr.Miracast.P2p

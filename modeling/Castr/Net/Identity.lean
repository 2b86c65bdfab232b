import Castr.Lib.Hex
import Castr.Lib.Replacing
import Castr.Lib.Run
import Castr.Lib.Utf8
import Castr.Net.Pairing
import Std.Data.TreeMap.Lemmas

/-! A device's identity and the peers it is paired with, as they are kept on disk. -/

namespace Castr.Net.IdentityStore

open Castr.Lib.Replacing
open Castr.Lib.Run
open Castr.Net.Pairing (Fingerprint)
open Castr.Proto (Bytes)

section Identities

inductive File where
  | crt
  | crtTmp
  | key
  | keyTmp
  deriving DecidableEq, Repr

/-- A certificate and the key it was generated with. -/
structure Pair where
  certDer : Bytes
  keyDer : Bytes
  deriving DecidableEq, Repr

structure Identity where
  certDer : Bytes
  keyDer : Bytes
  fingerprint : Fingerprint
  deriving DecidableEq, Repr

/-- Where a start ends: while one of the files is replaced, or with an identity. -/
inductive Ending where
  | inCrt (cut : Cut UInt8)
  | inKey (cut : Cut UInt8)
  | through
  deriving DecidableEq

-- the hash of a certificate
variable (fingerprintOf : Bytes → Fingerprint)

def identity (pair : Pair) : Identity := ⟨pair.certDer, pair.keyDer, fingerprintOf pair.certDer⟩

def writeCrt (disk : Disk File UInt8) (pair : Pair) (cut : Cut UInt8) : Disk File UInt8 :=
  replace disk .crt .crtTmp pair.certDer cut

def writeKey (disk : Disk File UInt8) (pair : Pair) (cut : Cut UInt8) : Disk File UInt8 :=
  replace disk .key .keyTmp pair.keyDer cut

def create (disk : Disk File UInt8) (pair : Pair) :
    Ending → Disk File UInt8 × Option Identity
  | .inCrt cut => (writeCrt disk pair cut, none)
  | .inKey cut => (writeKey (writeCrt disk pair .done) pair cut, none)
  | .through =>
      (writeKey (writeCrt disk pair .done) pair .done, some (identity fingerprintOf pair))

/-- A start of the program: the pair it would generate, and where it ends. -/
def loadOrCreate (disk : Disk File UInt8) (start : Pair × Ending) :
    Disk File UInt8 × Option Identity :=
  match disk .crt, disk .key with
  | some cert, some key =>
      (disk, if start.2 = .through then some (identity fingerprintOf ⟨cert, key⟩) else none)
  | _, _ => create fingerprintOf disk start.1 start.2

/-- Without a key on the disk there is no identity; otherwise both files are of one pair. -/
def Whole (disk : Disk File UInt8) (made : List Pair) : Prop :=
  disk .key = none ∨
    ∃ pair ∈ made, disk .crt = some pair.certDer ∧ disk .key = some pair.keyDer

theorem writeCrt_key (disk : Disk File UInt8) (pair : Pair) (cut : Cut UInt8) :
    writeCrt disk pair cut .key = disk .key :=
  replace_other disk pair.certDer cut (by decide) (by decide)

theorem writeKey_crt (disk : Disk File UInt8) (pair : Pair) (cut : Cut UInt8) :
    writeKey disk pair cut .crt = disk .crt :=
  replace_other disk pair.keyDer cut (by decide) (by decide)

theorem writeKey_whole {disk : Disk File UInt8} {pair : Pair} {made : List Pair}
    (key : disk .key = none) (crt : disk .crt = some pair.certDer) (new : pair ∈ made)
    (cut : Cut UInt8) : Whole (writeKey disk pair cut) made := by
  have apart : File.key ≠ File.keyTmp := by decide
  rcases replace_cases disk pair.keyDer cut apart with ⟨_, there⟩ | ⟨_, gone⟩ | ⟨_, kept⟩
  · exact .inr ⟨pair, new, by rw [writeKey_crt, crt], there⟩
  · exact .inl gone
  · exact .inl (kept.trans key)

theorem loadOrCreate_settled (disk : Disk File UInt8) (start : Pair × Ending) {pair : Pair}
    (crt : disk .crt = some pair.certDer) (key : disk .key = some pair.keyDer) :
    loadOrCreate fingerprintOf disk start =
      (disk, if start.2 = .through then some (identity fingerprintOf pair) else none) := by
  rw [loadOrCreate, crt, key]

theorem loadOrCreate_fresh (disk : Disk File UInt8) (start : Pair × Ending)
    (key : disk .key = none) :
    loadOrCreate fingerprintOf disk start = create fingerprintOf disk start.1 start.2 := by
  rw [loadOrCreate, key]
  cases disk .crt <;> rfl

theorem create_step (disk : Disk File UInt8) (fresh : Pair) (ending : Ending) {made : List Pair}
    (key : disk .key = none) (new : fresh ∈ made) :
    Whole (create fingerprintOf disk fresh ending).1 made ∧
      ∀ id ∈ (create fingerprintOf disk fresh ending).2, ∃ pair ∈ made,
        id = identity fingerprintOf pair ∧
        (create fingerprintOf disk fresh ending).1 .crt = some pair.certDer ∧
        (create fingerprintOf disk fresh ending).1 .key = some pair.keyDer := by
  have crt : writeCrt disk fresh .done .crt = some fresh.certDer := replace_done disk _
  have still : ∀ cut, writeCrt disk fresh cut .key = none :=
    fun cut => (writeCrt_key disk fresh cut).trans key
  cases ending with
  | inCrt cut => exact ⟨.inl (still cut), by simp [create]⟩
  | inKey cut => exact ⟨writeKey_whole (still .done) crt new cut, by simp [create]⟩
  | through =>
      refine ⟨writeKey_whole (still .done) crt new .done, fun id same => ?_⟩
      have both : writeKey (writeCrt disk fresh .done) fresh .done .crt = some fresh.certDer := by
        rw [writeKey_crt, crt]
      have there : writeKey (writeCrt disk fresh .done) fresh .done .key = some fresh.keyDer :=
        replace_done _ _
      exact ⟨fresh, new, (Option.mem_some.mp same).symm, both, there⟩

theorem loadOrCreate_step (disk : Disk File UInt8) (start : Pair × Ending) {made : List Pair}
    (whole : Whole disk made) (new : start.1 ∈ made) :
    Whole (loadOrCreate fingerprintOf disk start).1 made ∧
      ∀ id ∈ (loadOrCreate fingerprintOf disk start).2, ∃ pair ∈ made,
        id = identity fingerprintOf pair ∧
        (loadOrCreate fingerprintOf disk start).1 .crt = some pair.certDer ∧
        (loadOrCreate fingerprintOf disk start).1 .key = some pair.keyDer := by
  rcases whole with key | ⟨pair, member, crt, key⟩
  · rw [loadOrCreate_fresh fingerprintOf disk start key]
    exact create_step fingerprintOf disk start.1 start.2 key new
  · rw [loadOrCreate_settled fingerprintOf disk start crt key]
    refine ⟨.inr ⟨pair, member, crt, key⟩, fun id same => ⟨pair, member, ?_, crt, key⟩⟩
    by_cases through : start.2 = .through
    · rw [if_pos through] at same
      exact (Option.mem_some.mp same).symm
    · rw [if_neg through] at same
      cases same

theorem settled_outputs (starts : List (Pair × Ending)) (disk : Disk File UInt8) {pair : Pair}
    (crt : disk .crt = some pair.certDer) (key : disk .key = some pair.keyDer) :
    ∀ out ∈ outputs (loadOrCreate fingerprintOf) disk starts, ∀ id ∈ out,
      id = identity fingerprintOf pair := by
  induction starts with
  | nil => simp
  | cons start starts ih =>
      rw [outputs_cons, loadOrCreate_settled fingerprintOf disk start crt key]
      refine List.forall_mem_cons.mpr ⟨fun id same => ?_, ih⟩
      by_cases through : start.2 = .through
      · rw [if_pos through] at same
        exact (Option.mem_some.mp same).symm
      · rw [if_neg through] at same
        cases same

theorem outputs_whole (starts : List (Pair × Ending)) (disk : Disk File UInt8)
    {made : List Pair} (whole : Whole disk made) (new : ∀ start ∈ starts, start.1 ∈ made) :
    ∃ pair, ∀ out ∈ outputs (loadOrCreate fingerprintOf) disk starts, ∀ id ∈ out,
      pair ∈ made ∧ id = identity fingerprintOf pair := by
  induction starts generalizing disk with
  | nil => exact ⟨⟨[], []⟩, by simp⟩
  | cons start starts ih =>
      obtain ⟨next, returned⟩ := loadOrCreate_step fingerprintOf disk start whole
        (new start List.mem_cons_self)
      have others : ∀ later ∈ starts, later.1 ∈ made :=
        fun later member => new later (List.mem_cons_of_mem start member)
      rw [outputs_cons]
      cases out : (loadOrCreate fingerprintOf disk start).2 with
      | none =>
          obtain ⟨pair, same⟩ := ih _ next others
          exact ⟨pair, List.forall_mem_cons.mpr ⟨by simp, same⟩⟩
      | some id =>
          obtain ⟨pair, member, same, crt, key⟩ := returned id out
          refine ⟨pair, List.forall_mem_cons.mpr ⟨?_, fun out inside id given => ?_⟩⟩
          · intro other given
            exact ⟨member, (Option.mem_some.mp given).symm.trans same⟩
          · exact ⟨member, settled_outputs fingerprintOf starts _ crt key out inside id given⟩

/-- However often and wherever starts are cut short, the certificate and the key of an identity
are of one pair that was generated, and every start that returns one returns the same. -/
theorem identity_stable (starts : List (Pair × Ending)) :
    ∃ pair, ∀ out ∈ outputs (loadOrCreate fingerprintOf) (fun _ => none) starts, ∀ id ∈ out,
      pair ∈ starts.map Prod.fst ∧ id = identity fingerprintOf pair :=
  outputs_whole fingerprintOf starts _ (.inl rfl)
    (fun start member => List.mem_map.mpr ⟨start, member, rfl⟩)

end Identities

section PairedPeers

structure PairedPeer where
  name : String
  pairedAtUnix : UInt64
  deriving DecidableEq, Repr

/-- Peers under the hexadecimal text of their fingerprints. -/
abbrev StoreFile := Std.TreeMap String PairedPeer

def fingerprintHex (fp : Fingerprint) : String := String.ofList (Lib.Hex.encode fp.toList)

def parseFingerprint (text : String) : Option Fingerprint :=
  (Lib.Hex.decode text.toList).bind (fun bytes =>
    if sized : bytes.length = 32 then some ⟨bytes.toArray, by simpa using sized⟩ else none)

namespace StoreFile

def isPaired (peers : StoreFile) (fp : Fingerprint) : Bool := peers.contains (fingerprintHex fp)

def add (peers : StoreFile) (fp : Fingerprint) (name : String) (now : UInt64) : StoreFile :=
  peers.insert (fingerprintHex fp) ⟨name, now⟩

end StoreFile

theorem parseFingerprint_hex (fp : Fingerprint) :
    parseFingerprint (fingerprintHex fp) = some fp := by
  rw [parseFingerprint, fingerprintHex, String.toList_ofList, Lib.Hex.decode_encode]
  have sized : fp.toList.length = 32 := by simp
  rw [Option.bind_some, dif_pos sized]
  rfl

theorem fingerprintHex_injective {one other : Fingerprint}
    (same : fingerprintHex one = fingerprintHex other) : one = other := by
  have read := parseFingerprint_hex one
  rw [same, parseFingerprint_hex] at read
  exact (Option.some.inj read).symm

theorem isPaired_add (peers : StoreFile) (fp other : Fingerprint) (name : String)
    (now : UInt64) : (peers.add fp name now).isPaired other = true ↔
      other = fp ∨ peers.isPaired other = true := by
  rw [StoreFile.isPaired, StoreFile.add, Std.TreeMap.contains_insert, Bool.or_eq_true,
    beq_iff_eq, Std.LawfulEqCmp.compare_eq_iff_eq]
  exact or_congr ⟨fun same => (fingerprintHex_injective same).symm, fun same => by rw [same]⟩
    Iff.rfl

structure Toml where
  encode : StoreFile → Bytes
  decode : Bytes → Option StoreFile

/-- What is relied on for a store: its text reads back as the same peers. -/
def Toml.Faithful (toml : Toml) (peers : StoreFile) : Prop :=
  ∃ read, toml.decode (toml.encode peers) = some read ∧
    ∀ fp, StoreFile.isPaired read fp = StoreFile.isPaired peers fp

inductive StorePath where
  | paired
  | pairedTmp
  deriving DecidableEq, Repr

/-- The peers a device knows, if its file could be read, and the file. -/
structure Device where
  disk : Disk StorePath UInt8
  peers : Option StoreFile

inductive Happening where
  /-- A peer is paired and the store saved, which may be cut short. -/
  | pair (fp : Fingerprint) (name : String) (now : UInt64) (cut : Cut UInt8)
  | restart

variable (toml : Toml)

def loadStore : Option Bytes → Option StoreFile
  | none => some ∅
  | some text => toml.decode text

namespace Device

def step (device : Device) : Happening → Device × Unit
  | .pair fp name now cut =>
      match device.peers with
      | none => (device, ())
      | some peers =>
          (⟨replace device.disk .paired .pairedTmp (toml.encode (peers.add fp name now)) cut,
            some (peers.add fp name now)⟩, ())
  | .restart => (⟨device.disk, loadStore toml (device.disk .paired)⟩, ())

def fresh : Device := ⟨fun _ => none, some ∅⟩

end Device

def Happening.Sound (device : Device) : Happening → Prop
  | .pair fp name now _ => ∀ peers ∈ device.peers, toml.Faithful (peers.add fp name now)
  | .restart => True

/-- The old file stays in its place until the new one takes it. -/
def Happening.steady : Happening → Bool
  | .pair _ _ _ cut => cut ≠ .removed
  | .restart => true

def pairedIn (happenings : List Happening) : List Fingerprint :=
  happenings.filterMap (fun happening =>
    match happening with
    | .pair fp _ _ _ => some fp
    | .restart => none)

def savedIn (happenings : List Happening) : List Fingerprint :=
  happenings.filterMap (fun happening =>
    match happening with
    | .pair fp _ _ cut => if cut = .done then some fp else none
    | .restart => none)

/-- Only peers that were paired, and while the file was never taken away all that were saved. -/
structure Between (peers : StoreFile) (paired saved : List Fingerprint) (steady : Bool) :
    Prop where
  sound : ∀ fp, peers.isPaired fp = true → fp ∈ paired
  whole : steady = true → ∀ fp ∈ saved, peers.isPaired fp = true

structure Remembers (device : Device) (paired saved : List Fingerprint) (steady : Bool) :
    Prop where
  memory : ∃ peers, device.peers = some peers ∧ Between peers paired saved steady
  file : ∃ peers, loadStore toml (device.disk .paired) = some peers ∧
    Between peers paired saved steady

theorem Between.add {peers : StoreFile} {paired saved : List Fingerprint} {steady : Bool}
    (between : Between peers paired saved steady) (fp : Fingerprint) (name : String)
    (now : UInt64) (more : List Fingerprint) (own : ∀ other ∈ more, other = fp) (still : Bool) :
    Between (peers.add fp name now) (paired ++ [fp]) (saved ++ more) (steady && still) where
  sound := by
    intro other there
    rcases (isPaired_add peers fp other name now).mp there with rfl | before
    · simp
    · exact List.mem_append_left _ (between.sound other before)
  whole := by
    intro all
    refine List.forall_mem_append.mpr ⟨fun other member => ?_, fun other member => ?_⟩
    · exact (isPaired_add _ _ _ _ _).mpr
        (.inr (between.whole (Bool.and_eq_true_iff.mp all).1 other member))
    · exact (isPaired_add _ _ _ _ _).mpr (.inl (own other member))

theorem Between.keep {peers : StoreFile} {paired saved : List Fingerprint} {steady : Bool}
    (between : Between peers paired saved steady) (more : List Fingerprint) (still : Bool) :
    Between peers (paired ++ more) saved (steady && still) :=
  ⟨fun fp there => List.mem_append_left _ (between.sound fp there),
    fun all => between.whole (Bool.and_eq_true_iff.mp all).1⟩

theorem pair_remembers {device : Device} {paired saved : List Fingerprint} {steady : Bool}
    (remembers : Remembers toml device paired saved steady) (fp : Fingerprint) (name : String)
    (now : UInt64) (cut : Cut UInt8)
    (sound : (Happening.pair fp name now cut).Sound toml device) :
    Remembers toml (device.step toml (.pair fp name now cut)).1 (paired ++ [fp])
      (saved ++ if cut = .done then [fp] else []) (steady && cut ≠ .removed) := by
  obtain ⟨peers, known, memory⟩ := remembers.memory
  obtain ⟨stored, read, file⟩ := remembers.file
  have own : ∀ other ∈ (if cut = .done then [fp] else []), other = fp := by
    intro other member
    split at member
    · exact List.mem_singleton.mp member
    · cases member
  have next : device.step toml (.pair fp name now cut) =
      (⟨replace device.disk .paired .pairedTmp (toml.encode (peers.add fp name now)) cut,
        some (peers.add fp name now)⟩, ()) := by rw [Device.step, known]
  rw [next]
  refine ⟨⟨_, rfl, memory.add fp name now _ own _⟩, ?_⟩
  have apart : StorePath.paired ≠ StorePath.pairedTmp := by decide
  rcases replace_cases device.disk (toml.encode (peers.add fp name now)) cut apart with
    ⟨rfl, there⟩ | ⟨rfl, gone⟩ | ⟨cuts, kept⟩
  · obtain ⟨again, decoded, same⟩ := sound peers known
    refine ⟨again, (congrArg (loadStore toml) there).trans decoded, ?_⟩
    have added := memory.add fp name now _ own (decide ((Cut.done : Cut UInt8) ≠ .removed))
    exact ⟨fun other inside => added.sound other ((same other).symm.trans inside),
      fun all other member => (same other).trans (added.whole all other member)⟩
  · refine ⟨∅, congrArg (loadStore toml) gone, fun other inside => ?_, fun all => ?_⟩
    · simp [StoreFile.isPaired] at inside
    · simp at all
  · refine ⟨stored, (congrArg (loadStore toml) kept).trans read, ?_⟩
    rw [if_neg cuts, List.append_nil]
    exact file.keep [fp] _

theorem run_remembers (happenings : List Happening)
    (sound : ∀ front happening back, happenings = front ++ happening :: back →
      happening.Sound toml (final (Device.step toml) .fresh front)) :
    Remembers toml (final (Device.step toml) .fresh happenings) (pairedIn happenings)
      (savedIn happenings) (happenings.all Happening.steady) := by
  have nothing : Between ∅ [] [] true := ⟨by simp [StoreFile.isPaired], by simp⟩
  refine final_induction (Device.step toml) .fresh happenings
    (fun done device => Remembers toml device (pairedIn done) (savedIn done)
      (done.all Happening.steady)) ⟨⟨∅, rfl, nothing⟩, ⟨∅, rfl, nothing⟩⟩ ?_
  intro front happening back split now
  rw [pairedIn, savedIn, List.filterMap_append, List.filterMap_append, List.all_append]
  cases happening with
  | pair fp name time cut =>
      have last : [Happening.pair fp name time cut].all Happening.steady =
        decide (cut ≠ .removed) :=
        Bool.and_true _
      have saved : savedIn [Happening.pair fp name time cut] =
          if cut = .done then [fp] else [] := by
        rw [savedIn]
        by_cases done : cut = .done
        · simp [done]
        · simp [done]
      have next := pair_remembers toml now fp name time cut (sound front _ back split)
      rw [← saved, ← last] at next
      exact next
  | restart =>
      simp only [List.filterMap_cons, List.filterMap_nil, List.append_nil, List.all_cons,
        List.all_nil, Happening.steady, Bool.and_true]
      exact ⟨now.file, now.file⟩

/-- Wherever a save is cut short and whenever the device starts again, its file is readable, only
peers that were paired are known, and while the old file stays in place until the new one takes it,
no pairing is forgotten that was once saved. -/
theorem pairing_durable (happenings : List Happening)
    (sound : ∀ front happening back, happenings = front ++ happening :: back →
      happening.Sound toml (final (Device.step toml) .fresh front)) :
    ∃ peers, (final (Device.step toml) .fresh happenings).peers = some peers ∧
      (∀ fp, StoreFile.isPaired peers fp = true → fp ∈ pairedIn happenings) ∧
      (happenings.all Happening.steady = true → ∀ fp ∈ savedIn happenings,
        StoreFile.isPaired peers fp = true) := by
  obtain ⟨peers, known, between⟩ := (run_remembers toml happenings sound).memory
  exact ⟨peers, known, between.sound, between.whole⟩

/-- The text of a store with one peer, and no other. -/
def onePeer (fp : Fingerprint) : Toml where
  encode := fun _ => Lib.Utf8.utf8 ("[peers.".toList ++ (fingerprintHex fp).toList ++
    "]\nname = \"tv\"\npaired_at_unix = 0\n".toList)
  decode := fun text =>
    if text = Lib.Utf8.utf8 ("[peers.".toList ++ (fingerprintHex fp).toList ++
      "]\nname = \"tv\"\npaired_at_unix = 0\n".toList) then some (StoreFile.add ∅ fp "tv" 0)
    else none

theorem onePeer_reads (fp : Fingerprint) (peers : StoreFile) :
    (onePeer fp).decode ((onePeer fp).encode peers) = some (StoreFile.add ∅ fp "tv" 0) :=
  if_pos rfl

theorem pairing_durable_restarted :
    ∃ peers, (final (Device.step (onePeer (.replicate 32 0xab))) .fresh
        [.pair (.replicate 32 0xab) "tv" 0 .done, .restart]).peers = some peers ∧
      StoreFile.isPaired peers (.replicate 32 0xab) = true := by
  obtain ⟨peers, known, _, saved⟩ := pairing_durable (onePeer (.replicate 32 0xab))
    [.pair (.replicate 32 0xab) "tv" 0 .done, .restart] (by
      intro front happening back split
      cases front with
      | nil =>
          obtain ⟨rfl, _⟩ := List.cons.inj split
          intro peers fresh
          cases fresh
          exact ⟨_, onePeer_reads _ _, fun _ => rfl⟩
      | cons first rest =>
          obtain ⟨rfl, later⟩ := List.cons.inj split
          cases rest with
          | nil =>
              obtain ⟨rfl, _⟩ := List.cons.inj later
              trivial
          | cons second rest => simp at later)
  exact ⟨peers, known, saved rfl _ (List.mem_singleton.mpr rfl)⟩

end PairedPeers

end Castr.Net.IdentityStore

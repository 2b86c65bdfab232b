import Castr.Lib.Varint
import Castr.Proto.Codec
import Castr.Proto.Reassemble

/-! The receive loops of a link: control messages on one stream, NACKs on another. -/

namespace Castr.Proto

open Castr.Lib.Varint

section Sizes

def u16Size (value : UInt16) : Nat := varintLen 2 value.toNat
def u32Size (value : UInt32) : Nat := varintLen 4 value.toNat
def lengthSize (length : Nat) : Nat := varintLen 9 length
def bytesSize (length : Nat) : Nat := lengthSize length + length

def Capabilities.size (caps : Capabilities) : Nat :=
  u32Size caps.maxWidth + u32Size caps.maxHeight + u32Size caps.maxFps +
    u32Size caps.maxBitrateBps + bytesSize caps.codecs.length + 1

def StreamParams.size (params : StreamParams) : Nat :=
  1 + u32Size params.width + u32Size params.height + u32Size params.fps + 1 +
    u32Size params.bitrateBps

def Stats.size (stats : Stats) : Nat :=
  u32Size stats.framesReceived + u32Size stats.framesDropped + u32Size stats.fragmentsLost +
    u32Size stats.fragmentsReceived + u32Size stats.decodeQueueDepth + u32Size stats.intervalMs

def ControlMessage.size : ControlMessage → Nat
  | .hello version name resumeToken =>
      1 + u16Size version + bytesSize name.utf8ByteSize + (if resumeToken.isSome then 17 else 1)
  | .helloAck name caps => 1 + bytesSize name.utf8ByteSize + caps.size
  | .startStream params => 1 + params.size
  | .sessionToken _ => 1 + 16
  | .setMode _ => 1 + 1
  | .requestKeyframe => 1
  | .stats report => 1 + report.size
  | .pairInit message => 1 + bytesSize message.length
  | .pairResp message => 1 + bytesSize message.length
  | .pairProof _ => 1 + 32
  | .pairOk => 1
  | .error code message => 1 + u16Size code + bytesSize message.utf8ByteSize
  | .goodbye reason => 1 + bytesSize reason.utf8ByteSize

def Nack.size (nack : Nack) : Nat :=
  u32Size nack.frameNumber + lengthSize nack.missing.length + (nack.missing.map u16Size).sum

end Sizes

end Castr.Proto

namespace Castr.Net

open Castr.Lib.Framing
open Castr.Lib.Varint
open Castr.Proto

/-- Every call of `recv_control` on what arrives. A message takes four bytes at least, so the
stream bounds the calls. -/
def Link.recvControl (codec : Postcard ControlMessage) (chunks : List Bytes) :
    List ControlMessage × Option ControlError :=
  collect (decodeLenPrefixed codec) (chunks.flatten.length + 1) [] chunks

def NackReceiver.recv (codec : Postcard Nack) (chunks : List Bytes) :
    List Nack × Option ControlError :=
  collect (decodeLenPrefixed codec) (chunks.flatten.length + 1) [] chunks

section Stream

variable {T : Type} (codec : Postcard T) (size : T → Nat) (sent : List T)

theorem stream_length : sent.length ≤ (sent.flatMap (encodeLenPrefixed codec)).length := by
  induction sent with
  | nil => exact Nat.le_refl 0
  | cons value rest ih =>
      have four : 4 ≤ (encodeLenPrefixed codec value).length := by
        simp [encodeLenPrefixed]
      rw [List.flatMap_cons, List.length_append, List.length_cons]
      omega

theorem collect_sent (faithful : ∀ value ∈ sent, codec.Faithful size value) :
    (∀ chunks : List Bytes, chunks.flatten = sent.flatMap (encodeLenPrefixed codec) →
        collect (decodeLenPrefixed codec) (chunks.flatten.length + 1) [] chunks = (sent, none)) ↔
      ∀ value ∈ sent, size value ≤ maxControlFrame := by
  have empty : decodeLenPrefixed codec [] = .ok none := rfl
  let frames := sent.map (fun value => (encodeLenPrefixed codec value, value))
  have firsts : (frames.map Prod.fst).flatten = sent.flatMap (encodeLenPrefixed codec) := by
    rw [List.map_map, List.flatMap_def]
    rfl
  have seconds : frames.map Prod.snd = sent := by
    rw [List.map_map]
    exact List.map_id sent
  have enough : frames.length < (sent.flatMap (encodeLenPrefixed codec)).length + 1 := by
    rw [List.length_map]
    exact Nat.lt_succ_of_le (stream_length codec sent)
  have framed : ∀ frame ∈ frames, size frame.2 ≤ maxControlFrame →
      Framed (decodeLenPrefixed codec) frame.1 frame.2 := by
    intro frame member small
    obtain ⟨value, inside, rfl⟩ := List.mem_map.mp member
    exact framed_small codec size value (faithful value inside) small
  have refused : ∀ frame ∈ frames, ¬ size frame.2 ≤ maxControlFrame →
      Refused (decodeLenPrefixed codec) frame.1 := by
    intro frame member large
    obtain ⟨value, inside, rfl⟩ := List.mem_map.mp member
    exact refused_large codec size value (faithful value inside) large
  have both := collect_iff (decodeLenPrefixed codec) frames empty
    (fun frame => size frame.2 ≤ maxControlFrame) framed refused _ enough
  rw [firsts, seconds, List.forall_mem_map] at both
  rw [← both]
  constructor
  · intro came chunks stream
    rw [← stream]
    exact came chunks stream
  · intro came chunks stream
    rw [stream]
    exact came chunks stream

end Stream

/-- Both streams deliver what was sent, however it is cut, if and only if every encoding is within
the limit of the reader. -/
theorem received_iff_within_limit (control : Postcard ControlMessage) (nacks : Postcard Nack)
    (messages : List ControlMessage) (asked : List Nack)
    (faithful : ∀ message ∈ messages, control.Faithful ControlMessage.size message)
    (faithfulNacks : ∀ nack ∈ asked, nacks.Faithful Nack.size nack) :
    ((∀ chunks : List Bytes, chunks.flatten = messages.flatMap (encodeLenPrefixed control) →
          Link.recvControl control chunks = (messages, none)) ∧
        (∀ chunks : List Bytes, chunks.flatten = asked.flatMap (encodeLenPrefixed nacks) →
          NackReceiver.recv nacks chunks = (asked, none))) ↔
      (∀ message ∈ messages, message.size ≤ maxControlFrame) ∧
        ∀ nack ∈ asked, nack.size ≤ maxControlFrame :=
  and_congr (collect_sent control ControlMessage.size messages faithful)
    (collect_sent nacks Nack.size asked faithfulNacks)

section Varints

def takeIndex (bytes : Bytes) : Option (UInt16 × Bytes) :=
  (takeVarint 2 3 bytes).map (fun taken => (UInt16.ofNat taken.1, taken.2))

/-- A NACK as it is encoded, with every bound of the decoder. -/
def nackPostcard : Postcard Nack where
  encode nack :=
    varint 4 nack.frameNumber.toNat ++ (varint 9 nack.missing.length ++
      nack.missing.flatMap (fun index => varint 2 index.toNat))
  decode bytes := do
    let (number, rest) ← takeVarint 4 15 bytes
    let (count, rest) ← takeVarint 9 1 rest
    let (missing, _) ← takeMany takeIndex count rest
    some ⟨UInt32.ofNat number, missing⟩

/-- The two messages that are a tag alone, as they are encoded. -/
def tagPostcard : Postcard ControlMessage where
  encode
    | .requestKeyframe => [5]
    | .pairOk => [10]
    | _ => []
  decode
    | [5] => some .requestKeyframe
    | [10] => some .pairOk
    | _ => none

theorem takeIndex_whole (index : UInt16) (rest : Bytes) :
    takeIndex (varint 2 index.toNat ++ rest) = some (index, rest) := by
  rw [takeIndex, takeVarint_varint 3 (by decide) 2 index.toNat index.toNat_lt, Option.map_some,
    UInt16.ofNat_toNat]

theorem takeIndex_cut (index : UInt16) (front back : Bytes)
    (split : varint 2 index.toNat = front ++ back) (missing : back ≠ []) :
    takeIndex front = none := by
  rw [takeIndex, takeVarint_cut 3 2 index.toNat front back split missing, Option.map_none]

theorem nack_faithful (nack : Nack) (addressable : nack.missing.length < 2 ^ 64) :
    nackPostcard.Faithful Nack.size nack := by
  have number : nack.frameNumber.toNat < (15 + 1) * 128 ^ 4 := nack.frameNumber.toNat_lt
  have count : nack.missing.length < (1 + 1) * 128 ^ 9 := addressable
  constructor
  · have each : (nack.missing.flatMap (fun index => varint 2 index.toNat)).length =
        (nack.missing.map u16Size).sum := by
      rw [List.length_flatMap]
      congr 2
      funext index
      exact varint_length 2 index.toNat
    simp only [nackPostcard, Nack.size, List.length_append, varint_length, each, Nat.add_assoc]
    rfl
  · have all := takeMany_whole (fun index : UInt16 => varint 2 index.toNat) takeIndex
      takeIndex_whole
      nack.missing []
    rw [List.append_nil] at all
    simp only [nackPostcard, takeVarint_varint 15 (by decide) 4 _ number,
      takeVarint_varint 1 (by decide) 9 _ count, Option.bind_eq_bind, Option.bind_some, all,
      UInt32.ofNat_toNat]
  · intro front back split missing
    simp only [nackPostcard] at split ⊢
    rcases append_cut _ _ front back split with ⟨tail, rfl, later⟩ | ⟨wanted, some, here⟩
    · rw [takeVarint_varint 15 (by decide) 4 _ number]
      rcases append_cut _ _ tail back later with ⟨last, rfl, indices⟩ | ⟨wanted, some, here⟩
      · have cut := takeMany_cut (fun index : UInt16 => varint 2 index.toNat) takeIndex
          takeIndex_whole takeIndex_cut nack.missing last back indices missing
        simp only [takeVarint_varint 1 (by decide) 9 _ count, Option.bind_eq_bind,
          Option.bind_some, cut, Option.bind_none]
      · simp only [takeVarint_cut 1 9 _ tail wanted here some, Option.bind_eq_bind,
          Option.bind_some, Option.bind_none]
    · simp only [takeVarint_cut 15 4 _ front wanted here some, Option.bind_eq_bind,
        Option.bind_none]

theorem tag_faithful : ∀ message ∈ [ControlMessage.requestKeyframe, .pairOk],
    tagPostcard.Faithful ControlMessage.size message := by
  have empty (byte : UInt8) (front back : Bytes) (split : [byte] = front ++ back)
      (missing : back ≠ []) : front = [] := by
    cases front with
    | nil => rfl
    | cons head front =>
        have rest := (List.cons.inj split).2
        exact absurd (List.append_eq_nil_iff.mp rest.symm).2 missing
  simp only [List.forall_mem_cons]
  refine ⟨⟨rfl, rfl, ?_⟩, ⟨rfl, rfl, ?_⟩, by simp⟩
  · intro front back split missing
    rw [empty 5 front back split missing]
    rfl
  · intro front back split missing
    rw [empty 10 front back split missing]
    rfl

theorem received_within_limit_small :
    Link.recvControl tagPostcard [[1, 0], [0, 0, 5, 1], [0, 0, 0, 10]] =
      ([.requestKeyframe, .pairOk], none) := by
  have both := (received_iff_within_limit tagPostcard nackPostcard [.requestKeyframe, .pairOk]
    [⟨7, [0, 2]⟩]
    tag_faithful (by simpa using nack_faithful ⟨7, [0, 2]⟩ (by decide))).mpr
      ⟨by decide, by decide⟩
  exact both.1 [[1, 0], [0, 0, 5, 1], [0, 0, 0, 10]] (by decide)

end Varints

section Large

theorem missing_length (p : Partial) : p.missing.length = p.parts.length - p.received := by
  have total := List.length_eq_countP_add_countP Option.isSome (l := p.parts)
  have count : p.missing.length = p.parts.countP (fun part => ¬ part.isSome) := by
    calc
      _ = p.parts.zipIdx.countP (fun entry => ¬ entry.1.isSome) := by
        rw [Partial.missing, List.length_filterMap_eq_countP]
        congr 1
        funext entry
        cases shape : entry.1 <;> simp [shape]
      _ = (p.parts.zipIdx.map Prod.fst).countP (fun part => ¬ part.isSome) := by
        rw [List.countP_map]
        rfl
      _ = p.parts.countP (fun part => ¬ part.isSome) := by rw [List.zipIdx_map_fst]
  rw [count, p.received_eq]
  omega

theorem push_first (maxAgeUs nowUs : UInt64) (h : DatagramHeader) (payload : Bytes)
    (known : KnownStream h.stream) (first : h.fragmentIndex = 0)
    (many : 2 ≤ h.fragmentCount.toNat) :
    ∃ p, ((Reassembler.new maxAgeUs).push (h.encode ++ payload) nowUs).2.partials[h.frameNumber]? =
        some p ∧ p.keyframe = h.isKeyframe ∧ p.firstSeenUs = nowUs ∧
      p.missing.length = h.fragmentCount.toNat - 1 := by
  have slots : (Partial.new h nowUs).parts.length = h.fragmentCount.toNat := by
    simp [Partial.new]
    omega
  have free : (Partial.new h nowUs).parts[h.fragmentIndex.toNat]? = some none := by
    simp [Partial.new, first]
  have empty : (Partial.new h nowUs).received = 0 := rfl
  have more : ((Partial.new h nowUs).fill _ payload free).received <
      ((Partial.new h nowUs).fill _ payload free).parts.length := by
    simp only [Partial.fill, List.length_set, slots, empty]
    omega
  refine ⟨(Partial.new h nowUs).fill _ payload free, ?_, rfl, rfl, ?_⟩
  · have fresh : (Reassembler.new maxAgeUs).past h.frameNumber = false := rfl
    have absent : (Reassembler.new maxAgeUs).partials[h.frameNumber]? = none :=
      Reassembler.new_partials maxAgeUs h.frameNumber
    rw [Reassembler.push, DatagramHeader.decode_encode h payload known]
    simp only [fresh, absent, Option.getD_none, Bool.false_and, Bool.false_eq_true, if_false,
      Reassembler.store, dif_pos free, if_pos more, Std.TreeMap.getElem?_insert_self]
  · rw [missing_length, Partial.fill]
    simp only [List.length_set, slots, empty, Nat.zero_add]

theorem varintLen_le (more value : Nat) : varintLen more value ≤ more + 1 := by
  induction more generalizing value with
  | zero => exact Nat.le_refl 1
  | succ more ih =>
      rw [varintLen]
      split
      · omega
      · have rest := ih (value / 128)
        omega

theorem nack_size (nack : Nack) :
    1 + lengthSize nack.missing.length + nack.missing.length ≤ nack.size ∧
      nack.size ≤ 5 + lengthSize nack.missing.length + nack.missing.length * 3 := by
  have number := varintLen_pos 4 nack.frameNumber.toNat
  have number_le := varintLen_le 4 nack.frameNumber.toNat
  have least := List.length_le_sum_of_one_le (nack.missing.map u16Size) (by
    simp only [List.forall_mem_map]
    exact fun index _ => varintLen_pos 2 index.toNat)
  have most := List.sum_le_card_nsmul (nack.missing.map u16Size) 3 (by
    simp only [List.forall_mem_map]
    exact fun index _ => varintLen_le 2 index.toNat)
  rw [List.length_map] at least most
  rw [smul_eq_mul] at most
  rw [Nack.size, u32Size]
  omega

theorem decode_large {T : Type} (codec : Postcard T) (size : T → Nat) (value : T)
    (faithful : codec.Faithful size value) (large : maxControlFrame < size value)
    (short : size value < 2 ^ 32) :
    decodeLenPrefixed codec (encodeLenPrefixed codec value) = .error .tooLarge := by
  rw [encodeLenPrefixed, faithful.length, Nat.mod_eq_of_lt short,
    decode_prefix codec _ short, if_pos large]

theorem recv_large (nack : Nack) (many : 65534 = nack.missing.length) :
    NackReceiver.recv nackPostcard [encodeLenPrefixed nackPostcard nack] =
      ([], some .tooLarge) := by
  have three : lengthSize 65534 = 3 := by decide
  have sizes := nack_size nack
  rw [← many, three] at sizes
  have large : maxControlFrame < nack.size := Nat.lt_of_lt_of_le (by decide) sizes.1
  have short : nack.size < 2 ^ 32 := Nat.lt_of_le_of_lt sizes.2 (by decide)
  have refused := decode_large nackPostcard Nack.size nack
    (nack_faithful nack (by rw [← many]; decide)) large short
  have empty : decodeLenPrefixed nackPostcard [] = .ok none := rfl
  rw [NackReceiver.recv, collect, receive, empty, List.nil_append, receive, refused]

theorem nack_first (maxAgeUs : UInt64) (h : DatagramHeader) (known : KnownStream h.stream)
    (first : h.fragmentIndex = 0) (many : 2 ≤ h.fragmentCount.toNat)
    (wanted : h.isKeyframe = true) :
    ∃ nack ∈ (((Reassembler.new maxAgeUs).push (h.encode ++ []) 0).2.tick 0 0 0).1,
      nack.missing.length = h.fragmentCount.toNat - 1 := by
  obtain ⟨p, present, keyframe, seen, missing⟩ := push_first maxAgeUs 0 h [] known first many
  refine ⟨⟨h.frameNumber, p.missing⟩, ?_, missing⟩
  rw [Reassembler.mem_nacks]
  refine ⟨p, present, ?_, Or.inl (keyframe.trans wanted), rfl⟩
  have fresh : Castr.Lib.Word.saturatingSub 0 0 = 0 := rfl
  simp [Reassembler.expired, seen, fresh]

/-- A frame that says it has 65535 fragments, and one of them, give a NACK that no receiver
reads. -/
theorem large_nack_not_received :
    let first : DatagramHeader := ⟨streamVideo, flagKeyframe, 0, 65535, 0, 0⟩
    let r := ((Reassembler.new 500000).push (first.encode ++ []) 0).2
    ∃ nack ∈ (r.tick 0 0 0).1,
      NackReceiver.recv nackPostcard [encodeLenPrefixed nackPostcard nack] =
        ([], some .tooLarge) := by
  obtain ⟨nack, asked, many⟩ := nack_first 500000 ⟨streamVideo, flagKeyframe, 0, 65535, 0, 0⟩
    (Or.inl rfl) rfl (by decide) rfl
  exact ⟨nack, asked, recv_large nack many.symm⟩

end Large

end Castr.Net

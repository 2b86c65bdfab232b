import Castr.Lib.Attributes
import Castr.Lib.Hex

/-! What a device says of itself before anything connects to it: the device-information
subelement, written by the sink and read by the source, and the pairing methods. -/

namespace Castr.Miracast

open Castr.Lib.Attributes
open Castr.Lib.Bytes (leBytes)

structure DeviceInfo where
  sessionAvailable : Bool
  rtspPort : UInt16
  maxThroughputMbps : UInt16
  deriving DecidableEq, Repr

namespace DeviceInfo

def flags (d : DeviceInfo) : UInt16 := if d.sessionAvailable then 0x0001 ||| 0x0010 else 0x0001

end DeviceInfo

/-- A length of two bytes and a body of six, as `WFD_SUBELEM_SET 0` takes them. -/
def deviceInfoSubelement (d : DeviceInfo) : String :=
  "0006" ++ String.ofList (Lib.Hex.padded 4 d.flags.toNat) ++
    String.ofList (Lib.Hex.padded 4 d.rtspPort.toNat) ++
    String.ofList (Lib.Hex.padded 4 d.maxThroughputMbps.toNat)

inductive DeviceKind where
  | source
  | primarySink
  | secondarySink
  | dualRole
  deriving DecidableEq, Repr

structure DeviceCaps where
  kind : DeviceKind
  sessionAvailable : Bool
  contentProtection : Bool
  rtspPort : UInt16
  maxThroughputMbps : UInt16
  deriving DecidableEq, Repr

def u16At (high low : UInt8) : UInt16 := UInt16.ofNat (pairOf high low)

def kindOf (info : UInt16) : DeviceKind :=
  if info &&& 0x0003 = 0 then .source
  else if info &&& 0x0003 = 1 then .primarySink
  else if info &&& 0x0003 = 2 then .secondarySink
  else .dualRole

def parseDeviceInfo : List UInt8 → Option DeviceCaps
  | a :: b :: c :: d :: e :: f :: _ => some {
      kind := kindOf (u16At a b)
      sessionAvailable := (u16At a b >>> 4) &&& 0x0003 = 1
      contentProtection := u16At a b &&& 0x0100 ≠ 0
      rtspPort := u16At c d
      maxThroughputMbps := u16At e f }
  | _ => none

structure ConfigMethods where
  bits : UInt16
  deriving DecidableEq, Repr

namespace ConfigMethods

def pushButtonBit : UInt16 := 0x0080

def has (methods : ConfigMethods) (bits : UInt16) : Bool := methods.bits &&& bits = bits

def pushButton (methods : ConfigMethods) : Bool := methods.has pushButtonBit

end ConfigMethods

/-- Config Methods has the number `0x1008` and two bytes. -/
def configMethodsOf : Attribute → Option ConfigMethods
  | (number, high :: low :: _) => if number = 0x1008 then some ⟨u16At high low⟩ else none
  | _ => none

def parseConfigMethods (value : List UInt8) : Option ConfigMethods := seek configMethodsOf value

/-- A vendor's information element; each part of it may fail to be read. -/
structure Element where
  oui : Option (List UInt8)
  ouiType : Option UInt8
  value : Option (List UInt8)
  deriving DecidableEq, Repr

def wfdOui : List UInt8 := [0x50, 0x6f, 0x9a]
def wfdOuiType : UInt8 := 10
def wpsOui : List UInt8 := [0x00, 0x50, 0xf2]
def wpsOuiType : UInt8 := 4

/-- Reads the first subelement, when it is the device information. -/
def displayCaps : List Element → Option DeviceCaps
  | [] => none
  | element :: elements => do
      let oui ← element.oui
      if oui ≠ wfdOui then displayCaps elements
      else
        let ouiType ← element.ouiType
        if ouiType ≠ wfdOuiType then displayCaps elements
        else
          let value ← element.value
          if 3 ≤ value.length ∧ value.head? = some 0 then parseDeviceInfo (value.drop 3)
          else displayCaps elements

def pairingMethods : List Element → Option ConfigMethods
  | [] => none
  | element :: elements =>
      if element.oui ≠ some wpsOui ∨ element.ouiType.getD 0 ≠ wpsOuiType then
        pairingMethods elements
      else (element.value.bind parseConfigMethods).or (pairingMethods elements)

inductive Ceremony where
  | pushButton
  | pin
  deriving DecidableEq, Repr

inductive Preference where
  | auto
  | forcePushButton
  | forcePin
  deriving DecidableEq, Repr

def chooseCeremony (methods : Option ConfigMethods) : Preference → Ceremony
  | .forcePin => .pin
  | .forcePushButton => .pushButton
  | .auto =>
      match methods with
      | some methods => if methods.pushButton then .pushButton else .pin
      | none => .pin

section Pairing

/-- What an element says of how its device can be paired. -/
def Element.methods (element : Element) : Option ConfigMethods :=
  if element.oui = some wpsOui ∧ element.ouiType.getD 0 = wpsOuiType then
    element.value.bind parseConfigMethods
  else none

theorem pairingMethods_eq (elements : List Element) :
    pairingMethods elements = elements.findSome? Element.methods := by
  induction elements with
  | nil => rfl
  | cons element elements ih =>
      rw [pairingMethods, List.findSome?_cons, ih, Element.methods]
      by_cases own : element.oui = some wpsOui ∧ element.ouiType.getD 0 = wpsOuiType
      · rw [if_pos own, if_neg (by simp [own.1, own.2])]
        cases element.value.bind parseConfigMethods <;> rfl
      · rw [if_neg own, if_pos (by rwa [Classical.not_and_iff_not_or_not] at own)]

theorem chooseCeremony_button (elements : List Element) :
    chooseCeremony (pairingMethods elements) .auto = .pushButton ↔
      ∃ front element back methods, elements = front ++ element :: back ∧
        element.methods = some methods ∧ methods.bits &&& 0x0080 = 0x0080 ∧
        ∀ earlier ∈ front, earlier.methods = none := by
  have offered (methods : ConfigMethods) :
      chooseCeremony (some methods) .auto = .pushButton ↔ methods.bits &&& 0x0080 = 0x0080 := by
    rw [chooseCeremony, ConfigMethods.pushButton, ConfigMethods.has, ConfigMethods.pushButtonBit]
    by_cases set : methods.bits &&& 0x0080 = 0x0080 <;> simp [set]
  rw [pairingMethods_eq]
  constructor
  · intro button
    cases found : elements.findSome? Element.methods with
    | none => rw [found] at button; cases button
    | some methods =>
        obtain ⟨front, element, back, split, offers, silent⟩ := List.findSome?_eq_some_iff.mp found
        rw [found] at button
        exact ⟨front, element, back, methods, split, offers, (offered methods).mp button, silent⟩
  · rintro ⟨front, element, back, methods, split, offers, set, silent⟩
    rw [List.findSome?_eq_some_iff.mpr ⟨front, element, back, split, offers, silent⟩]
    exact (offered methods).mpr set

end Pairing

section Advertised

def deviceInfoBytes (d : DeviceInfo) : List UInt8 :=
  [0, 6] ++ (leBytes 2 d.flags.toNat).reverse ++ (leBytes 2 d.rtspPort.toNat).reverse ++
    (leBytes 2 d.maxThroughputMbps.toNat).reverse

theorem padded_u16 (n : UInt16) :
    Lib.Hex.padded 4 n.toNat = Lib.Hex.encode (leBytes 2 n.toNat).reverse := by
  have small := n.toNat_lt
  exact Lib.Hex.padded_bytes 2 n.toNat (by decide) (by omega)

theorem deviceInfoSubelement_eq (d : DeviceInfo) :
    (deviceInfoSubelement d).toList = Lib.Hex.encode (deviceInfoBytes d) := by
  have size : ['0', '0', '0', '6'] = Lib.Hex.encode [0, 6] := by decide
  rw [deviceInfoSubelement, String.toList_append, String.toList_append, String.toList_append,
    String.toList_ofList, String.toList_ofList, String.toList_ofList, String.toList_ofList,
    padded_u16, padded_u16, padded_u16, size, deviceInfoBytes, Lib.Hex.encode_append,
    Lib.Hex.encode_append, Lib.Hex.encode_append]

theorem u16At_bytes (n : UInt16) :
    u16At (UInt8.ofNat (n.toNat / 256 % 256)) (UInt8.ofNat (n.toNat % 256)) = n := by
  rw [u16At, pairOf_bytes _ n.toNat_lt, UInt16.ofNat_toNat]

theorem parseDeviceInfo_bytes (d : DeviceInfo) :
    parseDeviceInfo ((deviceInfoBytes d).drop 2) = some {
      kind := .primarySink
      sessionAvailable := d.sessionAvailable
      contentProtection := false
      rtspPort := d.rtspPort
      maxThroughputMbps := d.maxThroughputMbps } := by
  have body : (deviceInfoBytes d).drop 2 =
      [UInt8.ofNat (d.flags.toNat / 256 % 256), UInt8.ofNat (d.flags.toNat % 256),
        UInt8.ofNat (d.rtspPort.toNat / 256 % 256), UInt8.ofNat (d.rtspPort.toNat % 256),
        UInt8.ofNat (d.maxThroughputMbps.toNat / 256 % 256),
        UInt8.ofNat (d.maxThroughputMbps.toNat % 256)] := rfl
  rw [body, parseDeviceInfo, u16At_bytes, u16At_bytes, u16At_bytes]
  cases free : d.sessionAvailable with
  | true =>
      have flags : d.flags = 0x0011 := by rw [DeviceInfo.flags, free]; rfl
      rw [flags]
      rfl
  | false =>
      have flags : d.flags = 0x0001 := by rw [DeviceInfo.flags, free]; rfl
      rw [flags]
      rfl

/-- An element of another vendor, or of another type. -/
def Element.Foreign (element : Element) : Prop :=
  ∃ oui, element.oui = some oui ∧
    (oui ≠ wfdOui ∨ ∃ ouiType, element.ouiType = some ouiType ∧ ouiType ≠ wfdOuiType)

theorem displayCaps_foreign (element : Element) (elements : List Element)
    (foreign : element.Foreign) : displayCaps (element :: elements) = displayCaps elements := by
  obtain ⟨oui, known, other⟩ := foreign
  rw [displayCaps, known]
  by_cases same : oui = wfdOui
  · obtain ⟨ouiType, read, apart⟩ := other.resolve_left (fun differs => differs same)
    simp [same, read, apart]
  · simp [same]

/-- What a sink has the supplicant advertise is what a source reads, wherever the element stands
among those of other vendors. -/
theorem advertised_read (d : DeviceInfo) (front back : List Element)
    (foreign : ∀ element ∈ front, element.Foreign) :
    ∃ bytes, Lib.Hex.decode (deviceInfoSubelement d).toList = some bytes ∧
      displayCaps (front ++ ⟨some wfdOui, some wfdOuiType, some (0 :: bytes)⟩ :: back) = some {
        kind := .primarySink
        sessionAvailable := d.sessionAvailable
        contentProtection := false
        rtspPort := d.rtspPort
        maxThroughputMbps := d.maxThroughputMbps } := by
  refine ⟨deviceInfoBytes d, by rw [deviceInfoSubelement_eq, Lib.Hex.decode_encode], ?_⟩
  induction front with
  | nil => exact parseDeviceInfo_bytes d
  | cons element front ih =>
      rw [List.cons_append, displayCaps_foreign _ _ (foreign element List.mem_cons_self)]
      exact ih (fun other member => foreign other (List.mem_cons_of_mem element member))

theorem advertised_read_behind : ∃ bytes,
    Lib.Hex.decode (deviceInfoSubelement ⟨true, 7236, 10⟩).toList = some bytes ∧
      displayCaps ([⟨some wpsOui, some wpsOuiType, none⟩] ++
        ⟨some wfdOui, some wfdOuiType, some (0 :: bytes)⟩ :: []) = some {
          kind := .primarySink
          sessionAvailable := true
          contentProtection := false
          rtspPort := 7236
          maxThroughputMbps := 10 } :=
  advertised_read ⟨true, 7236, 10⟩ [⟨some wpsOui, some wpsOuiType, none⟩] []
    (by
      intro element member
      rw [List.mem_singleton.mp member]
      exact ⟨wpsOui, rfl, .inl (by decide)⟩)

end Advertised

/-- The pairing methods found are those of the first Config Methods attribute that is long enough,
behind whole attributes of other kinds. -/
theorem parseConfigMethods_iff (value : List UInt8) (methods : ConfigMethods) :
    parseConfigMethods value = some methods ↔
      ∃ (others : List Attribute) (high low : UInt8) (more rest : List UInt8),
        value = others.flatMap encode ++ (encode (0x1008, high :: low :: more) ++ rest) ∧
        (∀ other ∈ others, Fits other ∧ (other.1 = 0x1008 → other.2.length < 2)) ∧
        more.length + 2 < 65536 ∧ methods.bits = u16At high low := by
  have silent (entry : Attribute) :
      configMethodsOf entry = none ↔ (entry.1 = 0x1008 → entry.2.length < 2) := by
    obtain ⟨number, body⟩ := entry
    match body with
    | [] => simp [configMethodsOf]
    | [_] => simp [configMethodsOf]
    | _ :: _ :: more =>
        have long : ¬more.length + 1 + 1 < 2 := by omega
        simp [configMethodsOf, long]
  rw [parseConfigMethods, seek_iff]
  constructor
  · rintro ⟨others, ⟨number, body⟩, rest, same, quiet, fits, spoken⟩
    match body with
    | [] => cases spoken
    | [_] => cases spoken
    | high :: low :: more =>
        rw [configMethodsOf] at spoken
        split at spoken
        · rename_i known
          cases known
          cases spoken
          exact ⟨others, high, low, more, rest, same,
            fun other member => ⟨(quiet other member).1, (silent other).mp (quiet other member).2⟩,
            fits.size, rfl⟩
        · cases spoken
  · rintro ⟨others, high, low, more, rest, same, quiet, size, bits⟩
    refine ⟨others, (0x1008, high :: low :: more), rest, same, ?_,
      ⟨(by decide : 0x1008 < 65536), size⟩, ?_⟩
    · exact fun other member => ⟨(quiet other member).1, (silent other).mpr (quiet other member).2⟩
    · rw [configMethodsOf, if_pos rfl, ← bits]

end Castr.Miracast

import Mathlib.Data.List.GetD
import VideoDetector.Lib.CString

/-!
# Set-address packets (`ipsearch/catcharp.c`)

`Catcharp` receives ARP packets. One whose padding contains `zenset` carries three addresses in hexadecimal,
which are kept as text in a structure that is cleared only once, compared with the local configuration and,
if one differs, written to it. `char` is signed, as on the hosts the program is built for. What lies in
memory behind the packet is arbitrary: the padding need not contain a zero.
-/

namespace VideoDetector.Ipsearch
set_option autoImplicit false
open Lib

/-! ## Addresses -/

/-- The value of a character in `ptr2ip`: that of a hexadecimal digit, and of any other character its code
as an `unsigned int`. -/
def digitValue (c : UInt8) : Nat :=
  let a := if c < 128 then c.toNat else c.toNat + 4294967040
  if 0x30 ≤ a ∧ a ≤ 0x39 then a - 0x30
  else if 0x41 ≤ a ∧ a ≤ 0x46 then a - 0x37
  else if 0x61 ≤ a ∧ a ≤ 0x66 then a - 0x57
  else a

/-- An `unsigned int` that is printed with `%d`. -/
def printed (n : Nat) : List UInt8 :=
  let v := (n : Int).bmod 4294967296
  ((if v < 0 then ['-'] else []) ++ Nat.toDigits 10 v.natAbs).map fun c => UInt8.ofNat c.toNat

/-- Two characters of an address as a number. -/
def octet (inbuf : List UInt8) (i : Nat) : Nat :=
  (digitValue (inbuf.getD (2 * i) 0) * 16 + digitValue (inbuf.getD (2 * i + 1) 0)) % 4294967296

/-- The text that `ptr2ip` prints for the eight characters it reads. -/
def ptr2ip (inbuf : List UInt8) : List UInt8 :=
  printed (octet inbuf 0) ++ 46 :: printed (octet inbuf 1) ++ 46 :: printed (octet inbuf 2) ++ 46 :: printed (octet inbuf 3)

/-! ## Packets -/

/-- The padding of an `arp_packet`. -/
structure Padding where
  bytes : List UInt8
  size : bytes.length = 42

/-- What `recv` leaves: the length, the padding, and what lies behind it in memory. -/
structure Packet where
  len : Nat
  padding : Padding
  behind : List UInt8

/-- `sizeof(struct arp_packet)`. -/
def packetSize : Nat := 84

def zenset : List UInt8 := [0x7A, 0x65, 0x6E, 0x73, 0x65, 0x74]

/-- The bytes that are read from the padding on. -/
def Packet.memory (p : Packet) : List UInt8 := p.padding.bytes ++ p.behind

/-- The packet sets addresses. -/
def Packet.isZenset (p : Packet) : Bool := p.len == packetSize && strstr p.memory zenset

/-- The places of `ip`, `netmask` and `gateway` in `device_node`. -/
def ipOffset : Nat := 21
def netmaskOffset : Nat := 37
def gatewayOffset : Nat := 53

/-- One call of `strtok` and `ptr2ip`: the text goes to the structure if there is a token. -/
def takeAddress (offset : Nat) (s : Mem × List UInt8) : Mem × List UInt8 :=
  match strtok 44 s.2 with
  | none => s
  | some (tmp, rest) => (storeBytes s.1 offset (ptr2ip tmp ++ [0]), rest)

/-- The addresses of a packet go to the structure. -/
def takeAddresses (bs : List UInt8) (m : Mem) : Mem :=
  match strtok 44 bs with
  | none => m
  | some (_, rest) => (takeAddress gatewayOffset (takeAddress netmaskOffset (takeAddress ipOffset (m, rest)))).1

/-- What a packet does to `zenith_device`. -/
def catchArp (m : Mem) (p : Packet) : Mem := if p.isZenset then takeAddresses p.memory m else m

/-- `zenith_device` after some packets. -/
def catchAll (ps : List Packet) : Mem := ps.foldl catchArp fun _ => 0

/-- The local configuration. -/
structure NetInfo where
  ip : List UInt8
  netmask : List UInt8
  gateway : List UInt8
  deriving DecidableEq

/-- The texts in `zenith_device`. Each ends within 80 bytes: `ptr2ip` prints at most 47 characters. -/
def deviceInfo (m : Mem) : NetInfo := ⟨cStringAt m ipOffset 80, cStringAt m netmaskOffset 80, cStringAt m gatewayOffset 80⟩

/-- The texts that are compared, and whether `modify_config_ini` is called with them. -/
structure Applied where
  info : NetInfo
  written : Bool
  deriving DecidableEq

def applied (localInfo : NetInfo) (m : Mem) (p : Packet) : Option Applied :=
  if p.isZenset then
    let info := deviceInfo (catchArp m p)
    some ⟨info, info.ip != localInfo.ip || info.netmask != localInfo.netmask || info.gateway != localInfo.gateway⟩
  else none

/-! ## Own addresses -/

def isHex (c : UInt8) : Bool := (0x30 ≤ c && c ≤ 0x39) || (0x41 ≤ c && c ≤ 0x46) || (0x61 ≤ c && c ≤ 0x66)

/-- The bytes begin with eight hexadecimal digits. -/
def beginsHex (bs : List UInt8) : Bool := decide (8 ≤ bs.length) && (bs.take 8).all isHex

/-- The padding has three addresses of eight hexadecimal digits behind its first token. -/
def wellFormed (padding : List UInt8) : Bool :=
  match strtok 44 padding with
  | none => false
  | some (_, s) =>
    match strtok 44 s with
    | none => false
    | some (ip, s) =>
      match strtok 44 s with
      | none => false
      | some (netmask, s) =>
        match strtok 44 s with
        | none => false
        | some (gateway, _) => beginsHex ip && beginsHex netmask && beginsHex gateway

/-- A packet with this padding is applied on its own: what is compared and written does not depend on the
packets before it or on the memory behind it, and without three addresses nothing is written. -/
structure AppliedAlone (padding : Padding) : Prop where
  own : ∀ localInfo history history' behind behind',
    applied localInfo (catchAll history) ⟨packetSize, padding, behind⟩ =
      applied localInfo (catchAll history') ⟨packetSize, padding, behind'⟩
  strict : wellFormed padding.bytes = false → ∀ localInfo history behind a,
    applied localInfo (catchAll history) ⟨packetSize, padding, behind⟩ = some a → a.written = false

theorem digitValue_lt {c : UInt8} (hex : isHex c = true) : digitValue c < 16 := by
  have all : ∀ n : Fin 256, isHex (UInt8.ofNat n) = true → digitValue (UInt8.ofNat n) < 16 := by decide +kernel
  have value := all ⟨c.toNat, c.toNat_lt⟩
  rw [UInt8.ofNat_toNat] at value
  exact value hex

/-- A byte is printed in at most three digits. -/
theorem printed_byte {n : Nat} (byte : n < 256) : (printed n).length ≤ 3 ∧ (0 : UInt8) ∉ printed n := by
  have all : ∀ n : Fin 256, (printed n).length ≤ 3 ∧ (0 : UInt8) ∉ printed n := by decide +kernel
  exact all ⟨n, byte⟩

theorem octet_lt {bs : List UInt8} (hex : beginsHex bs = true) {i : Nat} (inside : i < 4) : octet bs i < 256 := by
  unfold beginsHex at hex
  rw [Bool.and_eq_true, decide_eq_true_iff, List.all_eq_true] at hex
  have digit : ∀ k < 8, digitValue (bs.getD k 0) < 16 := by
    intro k few
    have bound : k < bs.length := by omega
    apply digitValue_lt
    apply hex.2
    rw [List.getD_eq_getElem _ _ bound]
    exact List.mem_iff_getElem.mpr ⟨k, by rw [List.length_take]; omega, List.getElem_take⟩
  have high := digit (2 * i) (by omega)
  have low := digit (2 * i + 1) (by omega)
  unfold octet
  omega

theorem dotted_fits {a b c d : List UInt8} (first : a.length ≤ 3 ∧ (0 : UInt8) ∉ a) (second : b.length ≤ 3 ∧ (0 : UInt8) ∉ b)
    (third : c.length ≤ 3 ∧ (0 : UInt8) ∉ c) (fourth : d.length ≤ 3 ∧ (0 : UInt8) ∉ d) :
    (a ++ 46 :: b ++ 46 :: c ++ 46 :: d).length ≤ 15 ∧ (0 : UInt8) ∉ a ++ 46 :: b ++ 46 :: c ++ 46 :: d := by
  constructor
  · simp only [List.length_append, List.length_cons]
    omega
  · simp [first.2, second.2, third.2, fourth.2]

/-- The text of an address of eight digits fits its field. -/
theorem ptr2ip_fits {bs : List UInt8} (hex : beginsHex bs = true) : (ptr2ip bs).length ≤ 15 ∧ (0 : UInt8) ∉ ptr2ip bs :=
  dotted_fits (printed_byte (octet_lt hex (by decide))) (printed_byte (octet_lt hex (by decide)))
    (printed_byte (octet_lt hex (by decide))) (printed_byte (octet_lt hex (by decide)))

/-- Only the first eight characters are read. -/
theorem ptr2ip_append {bs : List UInt8} (hex : beginsHex bs = true) (more : List UInt8) : ptr2ip (bs ++ more) = ptr2ip bs := by
  unfold beginsHex at hex
  rw [Bool.and_eq_true, decide_eq_true_iff] at hex
  have same : ∀ i < 4, octet (bs ++ more) i = octet bs i := by
    intro i inside
    unfold octet
    rw [List.getD_append _ _ _ _ (by omega), List.getD_append _ _ _ _ (by omega)]
  unfold ptr2ip
  rw [same 0 (by omega), same 1 (by omega), same 2 (by omega), same 3 (by omega)]

theorem ne_nil_of_strtok {delim : UInt8} {bs tmp rest : List UInt8} (found : strtok delim bs = some (tmp, rest)) : bs ≠ [] := by
  rintro rfl
  cases found

/-- **Three addresses** of a padding: whatever lies behind it and whatever the structure held, it holds
their texts now. -/
theorem takeAddresses_wellFormed {padding : List UInt8} (formed : wellFormed padding = true) :
    ∃ info, ∀ behind m, deviceInfo (takeAddresses (padding ++ behind) m) = info := by
  unfold wellFormed at formed
  split at formed
  next => cases formed
  next s0 first =>
    split at formed
    next => cases formed
    next ip s1 second =>
      split at formed
      next => cases formed
      next netmask s2 third =>
        split at formed
        next => cases formed
        next gateway s3 fourth =>
          rw [Bool.and_eq_true, Bool.and_eq_true] at formed
          obtain ⟨⟨ipHex, netmaskHex⟩, gatewayHex⟩ := formed
          refine ⟨⟨ptr2ip ip, ptr2ip netmask, ptr2ip gateway⟩, fun behind m => ?_⟩
          obtain ⟨longer, rest, last⟩ := strtok_append_prefix fourth behind
          unfold takeAddresses takeAddress
          simp only [strtok_append first (ne_nil_of_strtok second), strtok_append second (ne_nil_of_strtok third),
            strtok_append third (ne_nil_of_strtok fourth), last]
          rw [ptr2ip_append ipHex, ptr2ip_append netmaskHex, ptr2ip_append gatewayHex]
          obtain ⟨ipLength, ipNonzero⟩ := ptr2ip_fits ipHex
          obtain ⟨netmaskLength, netmaskNonzero⟩ := ptr2ip_fits netmaskHex
          obtain ⟨gatewayLength, gatewayNonzero⟩ := ptr2ip_fits gatewayHex
          have hasIp := hasString_store m ipOffset ipNonzero
          have hasNetmask := hasString_store (storeBytes m ipOffset (ptr2ip ip ++ [0])) netmaskOffset netmaskNonzero
          have hasGateway := hasString_store (storeBytes (storeBytes m ipOffset (ptr2ip ip ++ [0])) netmaskOffset
            (ptr2ip netmask ++ [0])) gatewayOffset gatewayNonzero
          have hasIp' := (hasIp.store (b := netmaskOffset) (by unfold ipOffset netmaskOffset; omega) (ptr2ip netmask ++ [0])).store
            (b := gatewayOffset) (by unfold ipOffset gatewayOffset; omega) (ptr2ip gateway ++ [0])
          have hasNetmask' := hasNetmask.store (b := gatewayOffset) (by unfold netmaskOffset gatewayOffset; omega)
            (ptr2ip gateway ++ [0])
          unfold deviceInfo
          rw [hasIp'.cStringAt (by omega), hasNetmask'.cStringAt (by omega), hasGateway.cStringAt (by omega)]

theorem isZenset_of {padding : Padding} (set : strstr padding.bytes zenset = true) (behind : List UInt8) :
    (⟨packetSize, padding, behind⟩ : Packet).isZenset = true := by
  show (packetSize == packetSize && strstr (padding.bytes ++ behind) zenset) = true
  rw [strstr_append set behind]
  rfl

/-- **A set-address packet** is applied on its own exactly if it has three addresses of eight hexadecimal
digits. -/
theorem applied_alone_iff (padding : Padding) (set : strstr padding.bytes zenset = true) :
    AppliedAlone padding ↔ wellFormed padding.bytes = true := by
  constructor
  · intro alone
    by_contra malformed
    rw [Bool.not_eq_true] at malformed
    have there := isZenset_of set []
    obtain ⟨info, result⟩ : ∃ info : NetInfo, deviceInfo (catchArp (catchAll []) ⟨packetSize, padding, []⟩) = info := ⟨_, rfl⟩
    have quiet := alone.strict malformed ⟨info.ip ++ [1], info.netmask, info.gateway⟩ [] [] _ (if_pos there)
    rw [result] at quiet
    simp at quiet
  · intro formed
    obtain ⟨info, same⟩ := takeAddresses_wellFormed formed
    have result : ∀ localInfo history behind, applied localInfo (catchAll history) ⟨packetSize, padding, behind⟩ =
        some ⟨info, info.ip != localInfo.ip || info.netmask != localInfo.netmask || info.gateway != localInfo.gateway⟩ := by
      intro localInfo history behind
      have there := isZenset_of set behind
      have info' : deviceInfo (catchArp (catchAll history) ⟨packetSize, padding, behind⟩) = info := by
        rw [catchArp, if_pos there]
        exact same behind _
      rw [applied, if_pos there, info']
    refine ⟨fun localInfo history history' behind behind' => ?_, fun malformed => ?_⟩
    · rw [result, result]
    · rw [formed] at malformed
      cases malformed

/-- `zenset` with an address, a netmask and a gateway. -/
def fullPadding : Padding :=
  ⟨zenset ++ 44 :: [0x43, 0x30, 0x41, 0x38, 0x30, 0x30, 0x30, 0x31] ++ 44 :: [0x46, 0x46, 0x46, 0x46, 0x46, 0x46, 0x30, 0x30] ++
    44 :: [0x43, 0x30, 0x41, 0x38, 0x30, 0x30, 0x46, 0x45] ++ List.replicate 9 0, by decide⟩

/-- `zenset` with an address only. -/
def partPadding : Padding := ⟨zenset ++ 44 :: [0x43, 0x30, 0x41, 0x38, 0x30, 0x30, 0x30, 0x32] ++ List.replicate 27 0, by decide⟩

theorem fullPadding_alone : AppliedAlone fullPadding :=
  (applied_alone_iff fullPadding (by decide +kernel)).mpr (by decide +kernel)

/-- The texts of an address, a netmask and a gateway. -/
def sampleInfo (host : UInt8) : NetInfo :=
  ⟨[0x31, 0x39, 0x32, 46, 0x31, 0x36, 0x38, 46, 0x30, 46, host], [0x32, 0x35, 0x35, 46, 0x32, 0x35, 0x35, 46, 0x32, 0x35, 0x35, 46, 0x30],
    [0x31, 0x39, 0x32, 46, 0x31, 0x36, 0x38, 46, 0x30, 46, 0x32, 0x35, 0x34]⟩

/-- The address alone is written with the netmask and the gateway of an earlier packet, or with none. -/
theorem partPadding_stale :
    applied (sampleInfo 0x31) (catchAll [⟨packetSize, fullPadding, []⟩]) ⟨packetSize, partPadding, []⟩ = some ⟨sampleInfo 0x32, true⟩ ∧
      applied (sampleInfo 0x31) (catchAll []) ⟨packetSize, partPadding, []⟩ = some ⟨⟨(sampleInfo 0x32).ip, [], []⟩, true⟩ ∧
      wellFormed partPadding.bytes = false := by
  decide +kernel

end VideoDetector.Ipsearch

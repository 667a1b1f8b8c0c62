import Mathlib
import RustyDB.Lib.LineFile
import RustyDB.Lib.LittleEndian

/-!
# Packets

The model of `read_packet`, `write_packet` and `write_packets` of `src/wire/mod.rs`.  A
packet is a header of four bytes, the length of the payload in three of them and the
sequence identifier in the fourth, and the payload.

* `readPacket`, `writePacket`, `writePackets` — one packet off a stream, one packet and a
  sequence of packets onto it.
* `readPackets` — successive calls of `read_packet`.
* `packets_round_trip` — **a sequence of payloads comes back exactly when each of them is
  shorter than `2 ^ 24` bytes.**
-/

namespace RustyDB
namespace Wire

open LineFile LittleEndian

/-! ## One packet -/

/-- `write_packet`: the length is cut to its lowest three bytes. -/
def writePacket (sequence : UInt8) (payload : Bytes) : Bytes :=
  [UInt8.ofNat (payload.length &&& 0xff), UInt8.ofNat ((payload.length >>> 8) &&& 0xff),
    UInt8.ofNat ((payload.length >>> 16) &&& 0xff), sequence] ++ payload

/-- `read_packet`: the sequence identifier and the payload, and the rest of the stream;
`none` when the stream ends before the packet does. -/
def readPacket (stream : Bytes) : Option ((UInt8 × Bytes) × Bytes) :=
  match stream with
  | b0 :: b1 :: b2 :: sequence :: rest =>
    let payloadLength := b0.toNat ||| (b1.toNat <<< 8) ||| (b2.toNat <<< 16)
    (takeBytes payloadLength rest).map fun taken => ((sequence, taken.1), taken.2)
  | _ => none

/-- `write_packets`: the stream and the next sequence identifier. -/
def writePackets (sequence : UInt8) : List Bytes → Bytes × UInt8
  | [] => ([], sequence)
  | payload :: payloads =>
    let written := writePackets (sequence + 1) payloads
    (writePacket sequence payload ++ written.1, written.2)

/-- Successive calls of `read_packet`. -/
def readPackets : Nat → Bytes → Option (List (UInt8 × Bytes) × Bytes)
  | 0, stream => some ([], stream)
  | count + 1, stream => do
    let (packet, stream) ← readPacket stream
    let (packets, stream) ← readPackets count stream
    pure (packet :: packets, stream)

/-- Payloads with the sequence identifiers that follow one another, modulo 256. -/
def numbered (sequence : UInt8) : List Bytes → List (UInt8 × Bytes)
  | [] => []
  | payload :: payloads => (sequence, payload) :: numbered (sequence + 1) payloads

/-- What is written is read again, and nothing is left. -/
def RoundTrips (sequence : UInt8) (payloads : List Bytes) : Prop :=
  readPackets payloads.length (writePackets sequence payloads).1 =
    some (numbered sequence payloads, [])

/-! ## The header -/

/-- The three bytes of a length, put together again. -/
theorem header_length (n : Nat) :
    (UInt8.ofNat (n &&& 0xff)).toNat ||| ((UInt8.ofNat ((n >>> 8) &&& 0xff)).toNat <<< 8) |||
      ((UInt8.ofNat ((n >>> 16) &&& 0xff)).toNat <<< 16) = n % 2 ^ 24 := by
  have hmask : ∀ m : Nat, (UInt8.ofNat (m &&& 0xff)).toNat = m % 2 ^ 8 := by
    intro m
    rw [UInt8.toNat_ofNat', show (0xff : Nat) = 2 ^ 8 - 1 from rfl, Nat.and_two_pow_sub_one_eq_mod]
    exact Nat.mod_mod m _
  rw [hmask, hmask, hmask]
  apply Nat.eq_of_testBit_eq
  intro i
  simp only [Nat.testBit_or, Nat.testBit_shiftLeft, Nat.testBit_mod_two_pow, Nat.testBit_shiftRight]
  by_cases h8 : i < 8
  · have h24 : i < 24 := by omega
    have hge : ¬ 8 ≤ i := by omega
    have hge' : ¬ 16 ≤ i := by omega
    simp [h8, h24, hge, hge']
  · by_cases h16 : i < 16
    · have h24 : i < 24 := by omega
      have hge : 8 ≤ i := by omega
      have hge' : ¬ 16 ≤ i := by omega
      have hsub : i - 8 < 8 := by omega
      simp [h8, h24, hge, hge', hsub]
    · have hge : 8 ≤ i := by omega
      have hge' : 16 ≤ i := by omega
      have hsub : ¬ i - 8 < 8 := by omega
      have hiff : (i - 16 < 8) ↔ i < 24 := by omega
      simp [h8, hge, hge', hsub, hiff]

/-- **One packet**: as many bytes of the payload come back as the header says. -/
theorem readPacket_writePacket (sequence : UInt8) (payload rest : Bytes) :
    readPacket (writePacket sequence payload ++ rest) =
      some ((sequence, payload.take (payload.length % 2 ^ 24)),
        payload.drop (payload.length % 2 ^ 24) ++ rest) := by
  have hle : payload.length % 2 ^ 24 ≤ payload.length := Nat.mod_le _ _
  have htake := takeBytes_append (List.length_take_of_le hle)
    (payload.drop (payload.length % 2 ^ 24) ++ rest)
  rw [← List.append_assoc, List.take_append_drop] at htake
  simp only [writePacket, List.cons_append, List.nil_append, readPacket, header_length, htake,
    Option.map_some]

/-! ## Sequences of packets -/

theorem readPackets_writePackets {payloads : List Bytes}
    (h : ∀ payload ∈ payloads, payload.length < 2 ^ 24) (sequence : UInt8) :
    RoundTrips sequence payloads := by
  induction payloads generalizing sequence with
  | nil => rfl
  | cons payload payloads ih =>
    have hlength : payload.length % 2 ^ 24 = payload.length :=
      Nat.mod_eq_of_lt (h payload (by simp))
    have hrest := ih (fun other hother => h other (List.mem_cons_of_mem _ hother)) (sequence + 1)
    rw [RoundTrips] at hrest
    have hfirst := readPacket_writePacket sequence payload (writePackets (sequence + 1) payloads).1
    rw [hlength, List.take_length, List.drop_length, List.nil_append] at hfirst
    rw [RoundTrips, List.length_cons, writePackets, readPackets, hfirst]
    show (readPackets payloads.length (writePackets (sequence + 1) payloads).1).bind _ = _
    rw [hrest]
    rfl

/-- A payload of `2 ^ 24` bytes or more is cut where the header says. -/
theorem length_lt_of_roundTrips {payloads : List Bytes} {sequence : UInt8}
    (h : RoundTrips sequence payloads) : ∀ payload ∈ payloads, payload.length < 2 ^ 24 := by
  induction payloads generalizing sequence with
  | nil => exact nofun
  | cons payload payloads ih =>
    have hfirst := readPacket_writePacket sequence payload (writePackets (sequence + 1) payloads).1
    rw [RoundTrips, List.length_cons, writePackets, readPackets, hfirst] at h
    obtain ⟨first, hfirst, h⟩ := Option.bind_eq_some_iff.mp h
    obtain rfl := Option.some.inj hfirst
    obtain ⟨⟨packets, stream⟩, hpackets, heq⟩ := Option.bind_eq_some_iff.mp h
    simp only [Option.pure_def, Option.some.injEq, Prod.mk.injEq, numbered, List.cons.injEq,
      true_and] at heq
    obtain ⟨⟨htaken, hrest⟩, hend⟩ := heq
    have hlength : payload.length < 2 ^ 24 := by
      have hmod : payload.length % 2 ^ 24 < 2 ^ 24 := Nat.mod_lt _ (by decide)
      have htake := congrArg List.length htaken
      rw [List.length_take, Nat.min_eq_left (Nat.mod_le _ _)] at htake
      omega
    intro other hother
    rcases List.mem_cons.mp hother with rfl | hother
    · exact hlength
    · have hmod : payload.length % 2 ^ 24 = payload.length := Nat.mod_eq_of_lt hlength
      rw [hmod, List.drop_length, List.nil_append, hrest, hend] at hpackets
      exact ih hpackets other hother

/-- **Packet framing round trip.**  Successive calls of `read_packet` give back the
payloads that `write_packets` wrote, in order, with sequence identifiers that increase by
one modulo 256, and use up the stream, exactly when every payload is shorter than `2 ^ 24`
bytes. -/
theorem packets_round_trip (sequence : UInt8) (payloads : List Bytes) :
    RoundTrips sequence payloads ↔ ∀ payload ∈ payloads, payload.length < 2 ^ 24 :=
  ⟨length_lt_of_roundTrips, fun h => readPackets_writePackets h sequence⟩

/-- **A payload of `2 ^ 24` bytes** is announced as empty. -/
theorem long_payload_is_lost : ∃ payloads : List Bytes, ¬ RoundTrips 0 payloads := by
  refine ⟨[List.replicate (2 ^ 24) 0], fun h => ?_⟩
  have hlength := length_lt_of_roundTrips h _ (List.mem_singleton_self _)
  rw [List.length_replicate] at hlength
  exact Nat.lt_irrefl _ hlength

/-- Two packets, across the wrap of the sequence identifier. -/
example : RoundTrips 255 [[1, 2, 3], []] := by rfl

end Wire
end RustyDB

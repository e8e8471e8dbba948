/-
  StealthNet.Destination
  ──────────────────────
  THE DESTINATION THAT IS READ IS THE ONE THAT WAS WRITTEN.

  `packet_destination` gets whatever the TUN or a peer hands it.  Written with
  accesses that panic out of bounds (`packetDestinationChecked`) it never
  panics; it answers for the two versions from their shortest header on; and
  what it answers for an encoded header is the destination field, whatever
  the other fields are and whatever follows.

    • `packetDestinationChecked_eq`  — every access is in bounds;
    • `packetDestination_isSome_iff` — when there is an answer;
    • `packetDestination_exact`      — both, and the round trips.
-/
import StealthNet.Ip
import StealthNet.Net.Header
import StealthNet.Lib.Slice

namespace StealthNet

open Lib.Slice Lib.BigEndian

/-! ## §1. Accesses. -/

/-- `packet_destination`, with the accesses the source makes. -/
def packetDestinationChecked (packet : Bytes) : Except Panic (Option IpAddr) :=
  match packet.head? with
  | none => .ok none
  | some first =>
      let version := first >>> 4
      if version = 4 then
        if packet.length < 20 then .ok none
        else do
          let a ← index packet 16
          let b ← index packet 17
          let c ← index packet 18
          let d ← index packet 19
          return some (.v4 (ofOctets 32 [a, b, c, d]))
      else if version = 6 then
        if packet.length < 40 then .ok none
        else do
          let source ← range packet 24 40
          let octets ← copyFromSlice 16 source
          return some (.v6 (ofOctets 128 octets))
      else .ok none

theorem packetDestinationChecked_eq (packet : Bytes) :
    packetDestinationChecked packet = .ok (packetDestination packet) := by
  unfold packetDestinationChecked packetDestination
  cases packet.head? with
  | none => rfl
  | some first =>
      dsimp only
      by_cases hfour : first >>> 4 = 4
      · rw [if_pos hfour, if_pos hfour]
        by_cases hshort : packet.length < 20
        · rw [if_pos hshort, dif_pos hshort]
        · rw [if_neg hshort, dif_neg hshort, index_of_lt (by omega), index_of_lt (by omega),
            index_of_lt (by omega), index_of_lt (by omega)]
          rfl
      · rw [if_neg hfour, if_neg hfour]
        by_cases hsix : first >>> 4 = 6
        · rw [if_pos hsix, if_pos hsix]
          by_cases hshort : packet.length < 40
          · rw [if_pos hshort, if_pos hshort]
          · have hlength : 40 ≤ packet.length := by omega
            rw [if_neg hshort, if_neg hshort, range_of_le (by omega) hlength]
            show (copyFromSlice 16 (packet.extract 24 (24 + 16)) >>= fun octets =>
              pure (some (IpAddr.v6 (ofOctets 128 octets)))) = _
            rw [copyFromSlice_extract hlength]
            rfl
        · rw [if_neg hsix, if_neg hsix]

/-! ## §2. Answers. -/

/-- The upper half of the first octet. -/
def packetVersion (packet : Bytes) : Option UInt8 :=
  packet.head?.map fun (first : UInt8) => first >>> 4

/-- Four octets, one by one. -/
theorem four_octets {packet : Bytes} (h : 20 ≤ packet.length) :
    [packet[16], packet[17], packet[18], packet[19]] = packet.extract 16 20 := by
  rw [List.extract_eq_take_drop, List.drop_eq_getElem_cons (by omega),
    List.drop_eq_getElem_cons (by omega), List.drop_eq_getElem_cons (by omega),
    List.drop_eq_getElem_cons (by omega)]
  rfl

theorem packetDestination_eq (packet : Bytes) :
    packetDestination packet
      = if packetVersion packet = some 4 ∧ 20 ≤ packet.length then
          some (.v4 (ofOctets 32 (packet.extract 16 20)))
        else if packetVersion packet = some 6 ∧ 40 ≤ packet.length then
          some (.v6 (ofOctets 128 (packet.extract 24 40)))
        else none := by
  unfold packetDestination packetVersion
  cases packet.head? with
  | none => rfl
  | some first =>
      simp only [Option.map_some, Option.some.injEq]
      by_cases hfour : first >>> 4 = 4
      · have hsix : first >>> 4 ≠ 6 := by
          rw [hfour]
          decide
        by_cases hshort : packet.length < 20
        · simp [hfour, hshort]
        · have hlength : 20 ≤ packet.length := by omega
          rw [if_pos hfour, dif_neg hshort, if_pos ⟨hfour, hlength⟩, four_octets hlength]
      · by_cases hsix : first >>> 4 = 6
        · by_cases hshort : packet.length < 40
          · simp [hsix, hshort]
          · have hlength : 40 ≤ packet.length := by omega
            rw [if_neg hfour, if_pos hsix, if_neg hshort, if_neg fun h => hfour h.1,
              if_pos ⟨hsix, hlength⟩]
        · simp [hfour, hsix]

/-- There is an answer for the two versions, from their shortest header on. -/
theorem packetDestination_isSome_iff (packet : Bytes) :
    (packetDestination packet).isSome = true ↔
      packetVersion packet = some 4 ∧ 20 ≤ packet.length ∨
        packetVersion packet = some 6 ∧ 40 ≤ packet.length := by
  rw [packetDestination_eq]
  by_cases hfour : packetVersion packet = some 4 ∧ 20 ≤ packet.length
  · simp [hfour]
  · by_cases hsix : packetVersion packet = some 6 ∧ 40 ≤ packet.length
    · simp [hsix]
    · simp [hfour, hsix]

/-! ## §3. Encoded headers. -/

theorem packetVersion_append {front back : Bytes} {first : UInt8} (h : front.head? = some first) :
    packetVersion (front ++ back) = some (first >>> 4) := by
  unfold packetVersion
  rw [List.head?_append, h]
  rfl

theorem packetDestination_ipv4 (h : Ipv4Header) (payload : Bytes) :
    packetDestination (h.encode ++ payload) = some (.v4 h.destination) := by
  obtain ⟨first, hfirst, hfour⟩ := h.head_leading
  have hsplit : h.encode ++ payload
      = h.leading ++ (octets 4 h.destination.toNat
        ++ ((h.options.flatMap fun word => octets 4 word.toNat) ++ payload)) := by
    simp only [Ipv4Header.encode, List.append_assoc]
  have hversion : packetVersion (h.encode ++ payload) = some 4 := by
    rw [hsplit, packetVersion_append hfirst, hfour]
  have hlength : 20 ≤ (h.encode ++ payload).length := by
    rw [List.length_append, h.length_encode, h.toNat_ihl]
    omega
  rw [packetDestination_eq, if_pos ⟨hversion, hlength⟩, hsplit,
    extract_append _ _ _ h.length_leading (by rw [length_octets])]
  exact congrArg (fun bits => some (IpAddr.v4 bits)) (ofNat_value_octets 4 rfl h.destination)

/-- An IPv4 datagram of 20 octets from 10.50.1.1 to 10.50.3.7. -/
example : Ipv4Header.encode
    { dscp := 0, ecn := 0, totalLength := 20, identification := 0, flags := 0
      fragmentOffset := 0, ttl := 64, protocol := 17, checksum := 0, source := 0x0a320101
      destination := 0x0a320307, options := [], options_le := by decide }
      = [0x45, 0, 0, 20, 0, 0, 0, 0, 64, 17, 0, 0, 10, 50, 1, 1, 10, 50, 3, 7] := by
  decide

theorem packetDestination_ipv6 (h : Ipv6Header) (payload : Bytes) :
    packetDestination (h.encode ++ payload) = some (.v6 h.destination) := by
  obtain ⟨first, hfirst, hsix⟩ := h.head_leading
  have hsplit : h.encode ++ payload
      = h.leading ++ (octets 16 h.destination.toNat ++ payload) := by
    simp only [Ipv6Header.encode, List.append_assoc]
  have hversion : packetVersion (h.encode ++ payload) = some 6 := by
    rw [hsplit, packetVersion_append hfirst, hsix]
  have hlength : 40 ≤ (h.encode ++ payload).length := by
    rw [List.length_append, h.length_encode]
    omega
  have hnot : ¬ (packetVersion (h.encode ++ payload) = some 4 ∧
      20 ≤ (h.encode ++ payload).length) := by
    rw [hversion]
    simp
  rw [packetDestination_eq, if_neg hnot, if_pos ⟨hversion, hlength⟩, hsplit,
    extract_append _ _ _ h.length_leading (by rw [length_octets])]
  exact congrArg (fun bits => some (IpAddr.v6 bits)) (ofNat_value_octets 16 rfl h.destination)

/-- The destination is read without an access out of bounds, for the two
versions from their shortest header on, and it is the one in the header. -/
theorem packetDestination_exact :
    (∀ packet, packetDestinationChecked packet = .ok (packetDestination packet)) ∧
    (∀ packet, (packetDestination packet).isSome = true ↔
      packetVersion packet = some 4 ∧ 20 ≤ packet.length ∨
        packetVersion packet = some 6 ∧ 40 ≤ packet.length) ∧
    (∀ (h : Ipv4Header) payload,
      packetDestination (h.encode ++ payload) = some (.v4 h.destination)) ∧
    ∀ (h : Ipv6Header) payload,
      packetDestination (h.encode ++ payload) = some (.v6 h.destination) :=
  ⟨packetDestinationChecked_eq, packetDestination_isSome_iff, packetDestination_ipv4,
    packetDestination_ipv6⟩

end StealthNet

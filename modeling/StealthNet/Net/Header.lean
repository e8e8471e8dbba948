/-
  StealthNet.Net.Header
  ─────────────────────
  THE WIRE FORMAT OF IP HEADERS.

  The layouts of both headers, field by field in network byte order, as a
  sender writes them.  They are a reference for what the daemon reads: no
  function of the source encodes a header.

  An IPv4 header has 5 to 15 words, the words behind the fifth being options;
  the structure carries the bound, so a header that cannot be written does
  not exist.
-/
import StealthNet.Net.Addr
import StealthNet.Lib.BigEndian

namespace StealthNet

open Lib.BigEndian

/-! ## §1. IPv4. -/

/-- An IPv4 header. -/
structure Ipv4Header where
  dscp : BitVec 6
  ecn : BitVec 2
  totalLength : BitVec 16
  identification : BitVec 16
  flags : BitVec 3
  fragmentOffset : BitVec 13
  ttl : BitVec 8
  protocol : BitVec 8
  checksum : BitVec 16
  source : BitVec 32
  destination : BitVec 32
  options : List (BitVec 32)
  options_le : options.length ≤ 10

namespace Ipv4Header

/-- The length in words. -/
def ihl (h : Ipv4Header) : BitVec 4 := BitVec.ofNat 4 (5 + h.options.length)

theorem toNat_ihl (h : Ipv4Header) : h.ihl.toNat = 5 + h.options.length := by
  have hle := h.options_le
  unfold ihl
  rw [BitVec.toNat_ofNat]
  omega

/-- The fields in front of the destination. Version and length share an octet,
and so do the fields of the service type; the flags share two with the fragment
offset. -/
def leading (h : Ipv4Header) : Bytes :=
  octets 1 (4#4 ++ h.ihl).toNat ++ octets 1 (h.dscp ++ h.ecn).toNat ++
    octets 2 h.totalLength.toNat ++ octets 2 h.identification.toNat ++
    octets 2 (h.flags ++ h.fragmentOffset).toNat ++ octets 1 h.ttl.toNat ++
    octets 1 h.protocol.toNat ++ octets 2 h.checksum.toNat ++ octets 4 h.source.toNat

/-- As a sender writes it, with its options. -/
def encode (h : Ipv4Header) : Bytes :=
  h.leading ++ octets 4 h.destination.toNat ++ h.options.flatMap fun word => octets 4 word.toNat

theorem length_leading (h : Ipv4Header) : h.leading.length = 16 := by
  simp only [leading, List.length_append, length_octets]

/-- The encoding has as many octets as its length field says. -/
theorem length_encode (h : Ipv4Header) : h.encode.length = 4 * h.ihl.toNat := by
  have hoptions : (h.options.flatMap fun word => octets 4 word.toNat).length
      = 4 * h.options.length := by
    induction h.options with
    | nil => rfl
    | cons word options ih =>
        rw [List.flatMap_cons, List.length_append, ih, length_octets, List.length_cons]
        omega
  rw [toNat_ihl]
  unfold encode
  rw [List.length_append, List.length_append, length_leading, length_octets, hoptions]
  omega

/-- The first octet starts with the version. -/
theorem head_leading (h : Ipv4Header) :
    ∃ first, h.leading.head? = some first ∧ first >>> 4 = 4 := by
  obtain ⟨first, hfirst, hversion⟩ := head_octets_append 0 rfl 4#4 h.ihl
  refine ⟨first, ?_, hversion⟩
  simp only [leading, List.append_assoc]
  rw [List.head?_append, hfirst]
  rfl

end Ipv4Header

/-! ## §2. IPv6. -/

/-- An IPv6 header, without extensions. -/
structure Ipv6Header where
  trafficClass : BitVec 8
  flowLabel : BitVec 20
  payloadLength : BitVec 16
  nextHeader : BitVec 8
  hopLimit : BitVec 8
  source : BitVec 128
  destination : BitVec 128

namespace Ipv6Header

/-- The fields in front of the destination. -/
def leading (h : Ipv6Header) : Bytes :=
  octets 4 (6#4 ++ (h.trafficClass ++ h.flowLabel)).toNat ++ octets 2 h.payloadLength.toNat ++
    octets 1 h.nextHeader.toNat ++ octets 1 h.hopLimit.toNat ++ octets 16 h.source.toNat

/-- As a sender writes it. -/
def encode (h : Ipv6Header) : Bytes := h.leading ++ octets 16 h.destination.toNat

theorem length_leading (h : Ipv6Header) : h.leading.length = 24 := by
  simp only [leading, List.length_append, length_octets]

theorem length_encode (h : Ipv6Header) : h.encode.length = 40 := by
  simp only [encode, List.length_append, length_leading, length_octets]

/-- The first octet starts with the version. -/
theorem head_leading (h : Ipv6Header) :
    ∃ first, h.leading.head? = some first ∧ first >>> 4 = 6 := by
  obtain ⟨first, hfirst, hversion⟩ :=
    head_octets_append 3 rfl 6#4 (h.trafficClass ++ h.flowLabel)
  refine ⟨first, ?_, hversion⟩
  simp only [leading, List.append_assoc]
  rw [List.head?_append, hfirst]
  rfl

end Ipv6Header

end StealthNet

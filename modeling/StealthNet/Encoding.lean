/-
  StealthNet.Encoding
  ───────────────────
  ONE ENCODING FOR EVERY FRAME.

  The codec of a frame is canonical: nothing but what it writes is read, apart
  from bytes behind it.  So a frame determines its bytes, although magic,
  version, sender id and nonce are in the clear.

    §1  frames;
    §2  what a node relies on.
-/
import StealthNet.Ideal
import StealthNet.Lib.Canonical

namespace StealthNet

open Lib (Codec)
open Lib.Codec

namespace Bincode

/-! ## §1. Frames. -/

theorem canonical_bytes : (Codec.list u8).Canonical := canonical_byte.list fun _ h => by cases h

theorem canonical_outerFrame : outerFrame.Canonical :=
  ((canonical_byte.vector 4).seq (canonical_byte.seq (canonical_text.seq
    ((canonical_byte.vector 12).seq canonical_bytes)))).iso fun _ => rfl

end Bincode

/-! ## §2. What a node relies on. -/

/-- A buffer of the size of a receive buffer, at most, reads as the frame it
starts with the encoding of, and as no other. -/
structure Crates.CanonicalFrames (C : Crates) : Prop where
  read_iff : ∀ {packet f}, packet.length ≤ 65535 →
    (C.deserializeFrame packet = some f ↔
      ∃ bytes rest, C.serializeFrame f = some bytes ∧ packet = bytes ++ rest)

theorem Crates.canonicalFrames_ideal : Crates.ideal.CanonicalFrames where
  read_iff := by
    intro packet f hlen
    have hiff : ∀ rest, Bincode.outerFrame.read packet = some (f, rest) ↔
        packet = Bincode.outerFrame.write f ++ rest :=
      fun rest => Bincode.canonical_outerFrame.read_eq_some_iff (by omega)
    constructor
    · intro h
      obtain ⟨⟨f', rest⟩, hread, rfl⟩ := Option.map_eq_some_iff.mp h
      exact ⟨_, rest, rfl, (hiff rest).mp hread⟩
    · intro h
      obtain ⟨bytes, rest, hbytes, hpacket⟩ := h
      obtain rfl := Option.some.inj hbytes
      exact Option.map_eq_some_iff.mpr ⟨_, (hiff rest).mpr hpacket, rfl⟩

end StealthNet

/-
  StealthNet.Crypto
  ─────────────────
  IDENTITIES AND AUTHENTICATED ENCRYPTION (`crypto.rs`).

  `Crates` collects the functions the daemon calls from third-party packages:
  bincode, chacha20poly1305, x25519-dalek, hkdf, base64 and ipnet.  They are
  parameters of everything that follows; what the results rely on is stated
  beside them and assumed by name.
-/
import StealthNet.Frame

namespace StealthNet

/-- The functions of third-party packages. -/
structure Crates where
  serializeMessage : Message → Option Bytes
  deserializeMessage : Bytes → Except String Message
  serializeFrame : OuterFrame → Option Bytes
  deserializeFrame : Bytes → Option OuterFrame
  /-- ChaCha20-Poly1305 under a key, a nonce and associated data. -/
  aeadSeal : Key → Nonce → Bytes → Bytes → Option Bytes
  aeadOpen : Key → Nonce → Bytes → Bytes → Option Bytes
  x25519Public : Vector UInt8 32 → Vector UInt8 32
  x25519 : Vector UInt8 32 → Vector UInt8 32 → Vector UInt8 32
  /-- HKDF-SHA256 without a salt, expanded to 32 bytes. -/
  hkdfExpand : Vector UInt8 32 → Bytes → Option Key
  base64Encode : Bytes → String
  base64Decode : String → Option Bytes
  parseIpNet : String → Option IpNet

namespace Crates

/-- What bincode writes it reads back. -/
structure BincodeRoundTrips (C : Crates) : Prop where
  message : ∀ {m b}, C.serializeMessage m = some b → C.deserializeMessage b = .ok m
  frame : ∀ {f b}, C.serializeFrame f = some b → C.deserializeFrame b = some f

/-- A ciphertext opens to what was sealed. -/
structure AeadCorrect (C : Crates) : Prop where
  open_seal : ∀ {k n a p c}, C.aeadSeal k n a p = some c → C.aeadOpen k n a c = some p

/-- An ideal AEAD: a ciphertext opens to what was sealed, and only under the
key, nonce and associated data it was sealed with. -/
structure IdealAead (C : Crates) : Prop extends AeadCorrect C where
  open_only : ∀ {k n a p c k' n' a' p'}, C.aeadSeal k n a p = some c →
    C.aeadOpen k' n' a' c = some p' → k' = k ∧ n' = n ∧ a' = a

end Crates

/-- The UTF-8 bytes of a string. -/
def asBytes (s : String) : Bytes := s.toByteArray.data.toList

theorem asBytes_inj {s t : String} : asBytes s = asBytes t ↔ s = t := by
  constructor
  · intro h
    apply String.toByteArray_inj.mp
    exact ByteArray.ext (Array.toList_inj.mp h)
  · rintro rfl
    rfl

/-- The characters `str::trim` removes. -/
def isWhitespace (c : Char) : Bool :=
  (9 ≤ c.toNat && c.toNat ≤ 13) || (0x2000 ≤ c.toNat && c.toNat ≤ 0x200a) ||
    [0x20, 0x85, 0xa0, 0x1680, 0x2028, 0x2029, 0x202f, 0x205f, 0x3000].contains c.toNat

/-- `str::trim`: no white space at either end. -/
def trim (s : String) : String :=
  String.ofList (((s.toList.dropWhile isWhitespace).reverse.dropWhile isWhitespace).reverse)

section

variable (C : Crates)

/-- The static X25519 secret of a node. -/
structure Identity where
  secret : Vector UInt8 32
  deriving DecidableEq

/-- What the peers know of an identity. -/
def Identity.publicKey (identity : Identity) : Vector UInt8 32 :=
  C.x25519Public identity.secret

/-- The public key as it stands in their configurations. -/
def Identity.publicKeyBase64 (identity : Identity) : String :=
  C.base64Encode (identity.publicKey C).toList

/-- Decode the configured public key of a peer. -/
def decodePublicKey (peerPublicB64 : String) : Except String (Vector UInt8 32) :=
  match C.base64Decode (trim peerPublicB64) with
  | none => .error "peer public key is not valid base64"
  | some raw =>
      if h : raw.length = 32 then .ok ⟨raw.toArray, by simpa using h⟩
      else .error "peer public key must decode to 32 bytes"

/-- The key of a link: the shared secret, expanded under the context of the link. -/
def Identity.deriveSharedKey (identity : Identity) (peerPublicB64 : String)
    (context : Bytes) : Except String Key :=
  match decodePublicKey C peerPublicB64 with
  | .error e => .error e
  | .ok peer =>
      match C.hkdfExpand (C.x25519 identity.secret peer) context with
      | none => .error "hkdf expand failed"
      | some out => .ok out

/-- Base64 and X25519 as documented: a public key survives its encoding, and
both ends of an exchange compute one secret. -/
structure Crates.KeyAgreement : Prop where
  base64Decode_encode : ∀ b, C.base64Decode (C.base64Encode b) = some b
  trim_base64Encode : ∀ b, trim (C.base64Encode b) = C.base64Encode b
  x25519_comm : ∀ s s', C.x25519 s (C.x25519Public s') = C.x25519 s' (C.x25519Public s)

theorem decodePublicKey_base64 {C : Crates} (h : C.KeyAgreement) (identity : Identity) :
    decodePublicKey C (identity.publicKeyBase64 C) = .ok (identity.publicKey C) := by
  unfold decodePublicKey Identity.publicKeyBase64
  rw [h.trim_base64Encode, h.base64Decode_encode]
  simp [Vector.toList]

/-- A ciphertext that does not open is an error. -/
def decrypt (key : Key) (nonce : Nonce) (aad : Bytes) (ciphertext : Bytes) :
    Except String Bytes :=
  match C.aeadOpen key nonce aad ciphertext with
  | none => .error "decryption failed"
  | some plaintext => .ok plaintext

end

end StealthNet

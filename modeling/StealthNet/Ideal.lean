/-
  StealthNet.Ideal
  ────────────────
  CRATES WITH IDEAL CRYPTOGRAPHY.

  Bincode, base64 and the prefix parser are written out.  In place of the
  cryptography stand functions with its documented laws and no collisions: a
  ciphertext spells out its key, nonce, associated data and plaintext, a
  public key is its secret, and the shared secret of two keys is their sum.

  All the assumptions on third-party packages hold of them, and with them a
  daemon can be evaluated; `Line` is a network to do so with.
-/
import StealthNet.Bincode
import StealthNet.Daemon.Send
import StealthNet.Lib.Base64
import Mathlib.Algebra.GroupWithZero.Nat

namespace StealthNet

open Lib (Codec)

/-! ## §1. Prefixes. -/

/-- A slash and the length of a prefix. -/
def readPrefixLen (maxDigits limit : Nat) (cs : List Char) : Option (Nat × List Char) :=
  (readChar '/' cs).bind (readNumber 10 (some maxDigits) true limit)

/-- An IPv4 address and the length of its prefix, in two digits at most. -/
def readIpv4Net (cs : List Char) : Option (IpNet × List Char) := do
  let (addr, cs) ← readIpv4 .ipnet cs
  let (len, cs) ← readPrefixLen 2 33 cs
  return (.v4 ⟨addr, Fin.ofNat 33 len⟩, cs)

/-- An IPv6 address and the length of its prefix, in three digits at most. -/
def readIpv6Net (cs : List Char) : Option (IpNet × List Char) := do
  let (addr, cs) ← readIpv6 .ipnet cs
  let (len, cs) ← readPrefixLen 3 129 cs
  return (.v6 ⟨addr, Fin.ofNat 129 len⟩, cs)

/-- IPv4 is tried first. -/
def readIpNet (cs : List Char) : Option (IpNet × List Char) :=
  (readIpv4Net cs).orElse fun _ => readIpv6Net cs

/-! ## §2. Encryption. -/

/-- Key, nonce, associated data and plaintext. -/
def sealedText : Codec (Key × Nonce × Bytes × Bytes) :=
  (Codec.vector Bincode.u8 32).seq ((Codec.vector Bincode.u8 12).seq
    ((Codec.list Bincode.u8).seq (Codec.list Bincode.u8)))

/-- A ciphertext opens for what it spells out. -/
def idealOpen (k : Key) (n : Nonce) (a ciphertext : Bytes) : Option Bytes :=
  match sealedText.read ciphertext with
  | some ((k', n', a', p), []) => if k' = k ∧ n' = n ∧ a' = a then some p else none
  | _ => none

/-- The functions of third-party packages, with ideal cryptography. -/
def Crates.ideal : Crates where
  serializeMessage m := some (Bincode.message.write m)
  deserializeMessage b :=
    match Bincode.message.read b with
    | some (m, _) => .ok m
    | none => .error "invalid message"
  serializeFrame f := some (Bincode.outerFrame.write f)
  deserializeFrame b := (Bincode.outerFrame.read b).map Prod.fst
  aeadSeal k n a p := some (sealedText.write (k, n, a, p))
  aeadOpen := idealOpen
  x25519Public secret := secret
  x25519 secret peer := Vector.zipWith (· + ·) secret peer
  hkdfExpand secret _ := some secret
  base64Encode := Lib.Base64.encode
  base64Decode := Lib.Base64.decode
  parseIpNet := parseWith readIpNet

namespace Crates

/-! ## §3. The assumptions hold. -/

theorem bincodeRoundTrips_ideal : ideal.BincodeRoundTrips where
  message := by
    intro m b h
    obtain rfl := Option.some.inj h
    have := Bincode.message.read_write m []
    rw [List.append_nil] at this
    simp only [ideal, this]
  frame := by
    intro f b h
    obtain rfl := Option.some.inj h
    have := Bincode.outerFrame.read_write f []
    rw [List.append_nil] at this
    simp only [ideal, this, Option.map_some]

theorem idealOpen_sealed (k k' : Key) (n n' : Nonce) (a a' p : Bytes) :
    idealOpen k' n' a' (sealedText.write (k, n, a, p))
      = if k = k' ∧ n = n' ∧ a = a' then some p else none := by
  have := sealedText.read_write (k, n, a, p) []
  rw [List.append_nil] at this
  simp only [idealOpen, this]

theorem idealAead_ideal : ideal.IdealAead where
  open_seal := by
    intro k n a p c h
    obtain rfl := Option.some.inj h
    exact (idealOpen_sealed k k n n a a p).trans (if_pos ⟨rfl, rfl, rfl⟩)
  open_only := by
    intro k n a p c k' n' a' p' h hopen
    obtain rfl := Option.some.inj h
    have hopen := (idealOpen_sealed k k' n n' a a' p).symm.trans hopen
    split at hopen
    · rename_i heq
      exact ⟨heq.1.symm, heq.2.1.symm, heq.2.2.symm⟩
    · cases hopen

theorem total_ideal : ideal.Total where
  serializeMessage _ := Option.some_ne_none _
  aeadSeal _ _ _ _ := Option.some_ne_none _
  serializeFrame _ := Option.some_ne_none _

theorem trim_of_not_isWhitespace {s : String} (h : ∀ c ∈ s.toList, isWhitespace c = false) :
    trim s = s := by
  have hdrop : ∀ cs : List Char, (∀ c ∈ cs, isWhitespace c = false) →
      cs.dropWhile isWhitespace = cs := by
    intro cs hcs
    cases cs with
    | nil => rfl
    | cons c cs => rw [List.dropWhile_cons, hcs c List.mem_cons_self]; rfl
  rw [trim, hdrop _ h, hdrop _ (by simpa using h), List.reverse_reverse, String.ofList_toList]

theorem isWhitespace_encode {b : Bytes} {c : Char} (hc : c ∈ (Lib.Base64.encode b).toList) :
    isWhitespace c = false := by
  have hsymbols : ('=' :: Lib.Base64.symbols).all (fun c => !isWhitespace c) = true := by
    decide +kernel
  have hc := List.all_eq_true.mp hsymbols c (Lib.Base64.mem_encode hc)
  simpa using hc

theorem keyAgreement_ideal : ideal.KeyAgreement where
  base64Decode_encode := Lib.Base64.decode_encode
  trim_base64Encode b := trim_of_not_isWhitespace fun _ hc => isWhitespace_encode hc
  x25519_comm s s' := by
    show Vector.zipWith (· + ·) s s' = Vector.zipWith (· + ·) s' s
    rw [Vector.zipWith_comm]
    simp only [UInt8.add_comm]

theorem deriveSharedKey_ideal (identity identity' : Identity) (context : Bytes) :
    identity.deriveSharedKey ideal (identity'.publicKeyBase64 ideal) context
      = .ok (Vector.zipWith (· + ·) identity.secret identity'.secret) := by
  simp only [Identity.deriveSharedKey, decodePublicKey_base64 keyAgreement_ideal]
  rfl

end Crates

/-! ## §4. Three nodes in a line. -/

/-- A socket that accepts, a clock that counts the steps, a nonce that does not
repeat for 256 of them. -/
def Env.at (n : Nat) : Env where
  nonce := (Vector.replicate 12 0).set 0 (UInt8.ofNat n)
  socketAccepts := true
  nowMs := BitVec.ofNat 128 n
  elapsedMs := 1
  tunCreated := .ok ()
  valuesOrder l := l
  valuesOrder_perm _ := List.Perm.refl _

theorem Env.socketAccepts_at (n : Nat) : (Env.at n).socketAccepts = true := rfl

namespace Line

instance threeNodes : NeZero 3 := ⟨Nat.succ_ne_zero 2⟩

/-- Secrets whose sums differ for different pairs of nodes. -/
def identity (i : Fin 3) : Identity := ⟨Vector.ofFn fun j => if j.val = i.val then 1 else 0⟩

/-- The ids of the nodes. -/
def name (i : Fin 3) : String := ["a", "r", "b"].getD i ""

/-- Their stealth addresses. -/
def stealth (i : Fin 3) : String := ["st-a", "st-r", "st-b"].getD i ""

/-- Where their sockets are. -/
def address (i : Fin 3) : String := ["10.0.0.1:9000", "10.0.0.2:9000", "10.0.0.3:9000"].getD i ""

/-- The prefixes they own. -/
def pfx (i : Fin 3) : String := ["10.50.1.0/24", "10.50.2.0/24", "10.50.3.0/24"].getD i ""

/-- A node as the others have it in their configurations. -/
def peer (i : Fin 3) : PeerConfig :=
  { id := name i
    stealth := stealth i
    addr := address i
    publicKey := (identity i).publicKeyBase64 Crates.ideal }

/-- The middle node has both ends as peers, an end has the middle one and an
overlay route through it to the other end. -/
def config (i : Fin 3) : Config :=
  { node := { id := name i, role := "gateway", stealth := stealth i }
    transport := { mtu := 1400 }
    tun := some { enabled := true, name := "stn0", address := none }
    routing :=
      { ownedPrefixes := [pfx i]
        staticMap := [0, 1, 2].map fun j => ⟨pfx j, stealth j, 10, "direct"⟩
        overlayRoutes := if i = 1 then [] else [⟨stealth (2 - i), name 1⟩] }
    publicClients := none
    client := none
    peers := if i = 1 then [peer 0, peer 2] else [peer 1] }

/-- The first node as a client that has both others as peers. -/
def client (home : Fin 3) : Config :=
  { config 0 with
    node := { id := name 0, role := "client", stealth := stealth 0 }
    client := some
      { homeGatewayId := name home
        publicId := none
        requestedOverlayIp := none
        requestedStealth := none
        registerCapabilities := []
        bootstrapTimeoutMs := 5000 }
    peers := [peer 1, peer 2] }

/-- A datagram of node `i` for node `j`. -/
def datagram (i j : Fin 3) (msg : Message) : Bytes :=
  Bincode.outerFrame.write
    { magic := MAGIC
      version := VERSION
      senderId := name i
      nonce := (Env.at 0).nonce
      ciphertext := sealedText.write
        (Vector.zipWith (· + ·) (identity i).secret (identity j).secret, (Env.at 0).nonce,
          asBytes (name i), Bincode.message.write msg) }

/-- A datagram that names node `i` as its sender and does not decrypt. -/
def junk (i : Fin 3) : Bytes :=
  Bincode.outerFrame.write
    { magic := MAGIC
      version := VERSION
      senderId := name i
      nonce := (Env.at 0).nonce
      ciphertext := [] }

/-- A request of node `i` to the middle node for a stealth. -/
def request (i : Fin 3) (requested : String) : Message :=
  .bootstrapReq
    { requestId := 0
      nodeId := name i
      requestedStealth := requested
      requestedOverlayIp := none
      capabilities := []
      targetGatewayStealth := stealth 1 }

/-- A response to the bootstrap request of the client. -/
def response (assigned : String) : Message :=
  .bootstrapResp
    { requestId := 0
      assignedStealth := assigned
      assignedOverlayIp := none
      homeGatewayStealth := stealth 1
      mtu := 1400
      ok := true
      message := "ok" }

/-- A registration at the middle node, under a stealth it has no peer and no
overlay route for. -/
def registration : ClientRegister :=
  { requestId := 1
    srcStealth := "st-x"
    targetGatewayStealth := stealth 1
    client :=
      { publicId := name 0
        clientStealth := "st-x"
        advertisedPrefixes := []
        capabilities := []
        ttl := some 300 }
    ttl := 16 }

/-- An IPv4 packet without payload, for 10.50.3.7. -/
def packet : Bytes :=
  [0x45, 0, 0, 20, 0, 0, 0, 0, 64, 17, 0, 0, 10, 50, 1, 1, 10, 50, 3, 7]

end Line

end StealthNet

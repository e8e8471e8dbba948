/-
  StealthNet.Daemon.Opening
  ─────────────────────────
  WHO A DATAGRAM IS FROM.

  The two decoders, `openDatagram` and `decodeBootstrapResponse`, make the
  same checks in the same order and differ in what they do with a failure.
  `inspect` makes the checks once; both decoders are functions of its
  verdict.  A datagram some node sent is authentic exactly for a receiver
  that knows the sender under the key it was sealed with.
-/
import StealthNet.Daemon.Datagram
import StealthNet.Daemon.Bootstrap

namespace StealthNet

open Lib (HashMap)

/-- How far a datagram gets. -/
inductive Inspection
  | notAFrame
  | badMagic
  | badVersion (version : UInt8)
  | unknownSender (senderId : String)
  | undecryptable (senderId : String)
  | authentic (senderId : String) (peer : PeerRuntime) (plaintext : Bytes)
  deriving DecidableEq

/-- What a datagram is, before its message is read. -/
def inspect (C : Crates) (peersById : HashMap String PeerRuntime) (packet : Bytes) : Inspection :=
  match C.deserializeFrame packet with
  | none => .notAFrame
  | some frame =>
      if frame.magic ≠ MAGIC then .badMagic
      else if frame.version ≠ VERSION then .badVersion frame.version
      else
        match peersById.lookup frame.senderId with
        | none => .unknownSender frame.senderId
        | some peer =>
            match C.aeadOpen peer.key frame.nonce (asBytes frame.senderId) frame.ciphertext with
            | none => .undecryptable frame.senderId
            | some plaintext => .authentic frame.senderId peer plaintext

variable {C : Crates} {peersById : HashMap String PeerRuntime} {packet : Bytes}

/-! ## §1. The decoders by verdict. -/

/-- What `handle_datagram` does with a verdict. -/
theorem openDatagram_eq :
    openDatagram C peersById packet
      = match inspect C peersById packet with
        | .notAFrame => .error "invalid outer frame"
        | .badMagic => .error "bad magic"
        | .badVersion version => .error s!"unsupported version {version}"
        | .unknownSender senderId => .error s!"unknown sender {senderId}"
        | .undecryptable _ => .error "decryption failed"
        | .authentic _ peer plaintext =>
            match C.deserializeMessage plaintext with
            | .error _ => .error "invalid protocol message"
            | .ok msg => .ok (peer, msg) := by
  unfold openDatagram inspect
  cases C.deserializeFrame packet with
  | none => rfl
  | some frame =>
      by_cases hmagic : frame.magic = MAGIC
      · by_cases hversion : frame.version = VERSION
        · simp only [hmagic, hversion, ne_eq, not_true_eq_false, if_false]
          cases hp : peersById.lookup frame.senderId with
          | none => rfl
          | some peer =>
              simp only [decrypt]
              cases C.aeadOpen peer.key frame.nonce (asBytes frame.senderId)
                  frame.ciphertext with
              | none => rfl
              | some plaintext => rfl
        · simp only [hmagic, hversion, ne_eq, not_true_eq_false, not_false_eq_true, if_false,
            if_true]
      · simp only [hmagic, ne_eq, not_false_eq_true, if_true]

/-- What the bootstrap does with a verdict: an undecryptable datagram ends it. -/
theorem decodeBootstrapResponse_eq (config : Config) (requestId : UInt64) :
    decodeBootstrapResponse C config peersById packet requestId
      = match inspect C peersById packet with
        | .notAFrame | .badMagic | .badVersion _ | .unknownSender _ => .ok none
        | .undecryptable _ => .error "decryption failed"
        | .authentic _ _ plaintext =>
            match C.deserializeMessage plaintext with
            | .error e => .error e
            | .ok (.bootstrapResp resp) =>
                if resp.requestId = requestId then .ok (some resp) else .ok none
            | .ok (.error err) => .error s!"bootstrap error: {err.message}"
            | .ok _ => .ok none := by
  unfold decodeBootstrapResponse inspect
  cases C.deserializeFrame packet with
  | none => rfl
  | some frame =>
      by_cases hmagic : frame.magic = MAGIC
      · by_cases hversion : frame.version = VERSION
        · simp only [hmagic, hversion, ne_eq, not_true_eq_false, or_self, if_false]
          cases hp : peersById.lookup frame.senderId with
          | none => rfl
          | some peer =>
              simp only [decrypt]
              cases C.aeadOpen peer.key frame.nonce (asBytes frame.senderId)
                  frame.ciphertext with
              | none => rfl
              | some plaintext => rfl
        · simp only [hmagic, hversion, ne_eq, not_true_eq_false, not_false_eq_true, or_true,
            if_false, if_true]
      · simp only [hmagic, ne_eq, not_false_eq_true, true_or, if_true]

theorem openDatagram_eq_ok_iff {peer : PeerRuntime} {msg : Message} :
    openDatagram C peersById packet = .ok (peer, msg) ↔
      ∃ senderId plaintext, inspect C peersById packet = .authentic senderId peer plaintext ∧
        C.deserializeMessage plaintext = .ok msg := by
  rw [openDatagram_eq]
  constructor
  · intro h
    split at h <;> try simp at h
    rename_i senderId peer' plaintext hi
    split at h
    · simp at h
    · rename_i msg' hm
      simp only [Except.ok.injEq, Prod.mk.injEq] at h
      obtain ⟨rfl, rfl⟩ := h
      exact ⟨senderId, plaintext, hi, hm⟩
  · rintro ⟨senderId, plaintext, hi, hm⟩
    simp only [hi, hm]

/-- A bootstrap accepts only an authentic response. -/
theorem openDatagram_of_decode {config : Config} {requestId : UInt64} {resp : BootstrapResp}
    (h : decodeBootstrapResponse C config peersById packet requestId = .ok (some resp)) :
    ∃ peer, openDatagram C peersById packet = .ok (peer, .bootstrapResp resp) := by
  rw [decodeBootstrapResponse_eq] at h
  split at h <;> try simp at h
  rename_i senderId peer plaintext hi
  refine ⟨peer, openDatagram_eq_ok_iff.mpr ⟨senderId, plaintext, hi, ?_⟩⟩
  split at h
  · simp at h
  · rename_i resp' hm
    split at h
    · rw [hm, Option.some.inj (Except.ok.inj h)]
    · simp at h
  · simp at h
  · simp at h

/-! ## §2. Authentic datagrams. -/

theorem inspect_eq_authentic_iff {senderId : String} {peer : PeerRuntime} {plaintext : Bytes} :
    inspect C peersById packet = .authentic senderId peer plaintext ↔
      ∃ frame, C.deserializeFrame packet = some frame ∧ frame.magic = MAGIC ∧
        frame.version = VERSION ∧ frame.senderId = senderId ∧
        peersById.lookup senderId = some peer ∧
        C.aeadOpen peer.key frame.nonce (asBytes senderId) frame.ciphertext = some plaintext := by
  unfold inspect
  constructor
  · intro h
    split at h
    · simp at h
    · rename_i frame hf
      split at h
      · simp at h
      · rename_i hmagic
        split at h
        · simp at h
        · rename_i hversion
          split at h
          · simp at h
          · rename_i peer' hp
            split at h
            · simp at h
            · rename_i plaintext' ho
              simp only [Inspection.authentic.injEq] at h
              obtain ⟨rfl, rfl, rfl⟩ := h
              exact ⟨frame, hf, not_not.mp hmagic, not_not.mp hversion, rfl, hp, ho⟩
  · rintro ⟨frame, hf, hmagic, hversion, rfl, hp, ho⟩
    simp only [hf, hmagic, hversion, ne_eq, not_true_eq_false, if_false, hp, ho]

/-- A datagram opens only as coming from a known peer. -/
theorem openDatagram_peer {peer : PeerRuntime} {msg : Message}
    (h : openDatagram C peersById packet = .ok (peer, msg)) :
    ∃ senderId, peersById.lookup senderId = some peer := by
  obtain ⟨senderId, plaintext, hi, -⟩ := openDatagram_eq_ok_iff.mp h
  obtain ⟨_, _, _, _, _, hp, _⟩ := inspect_eq_authentic_iff.mp hi
  exact ⟨senderId, hp⟩

/-- A datagram some node sent is authentic where the sender is known under the
key of the call. -/
theorem inspect_of_known (hb : C.BincodeRoundTrips) (ho : C.AeadCorrect) (d : Datagram C)
    {peer : PeerRuntime} (hp : peersById.lookup d.call.senderId = some peer)
    (hk : peer.key = d.call.key) :
    inspect C peersById d.bytes = .authentic d.call.senderId peer d.call.plaintext := by
  rw [inspect_eq_authentic_iff, hb.frame d.framed]
  refine ⟨d.call.frame, rfl, rfl, rfl, rfl, hp, ?_⟩
  rw [hk]
  exact ho.open_seal d.call.encrypted

/-- It then opens to the message that was sent. -/
theorem openDatagram_of_known (hb : C.BincodeRoundTrips) (ho : C.AeadCorrect) (d : Datagram C)
    {peer : PeerRuntime} (hp : peersById.lookup d.call.senderId = some peer)
    (hk : peer.key = d.call.key) :
    openDatagram C peersById d.bytes = .ok (peer, d.call.msg) :=
  openDatagram_eq_ok_iff.mpr ⟨_, _, inspect_of_known hb ho d hp hk, hb.message d.call.serialized⟩

/-- With an ideal AEAD it is authentic nowhere else. -/
theorem inspect_datagram (hb : C.BincodeRoundTrips) (ha : C.IdealAead) (d : Datagram C)
    {senderId : String} {peer : PeerRuntime} {plaintext : Bytes} :
    inspect C peersById d.bytes = .authentic senderId peer plaintext ↔
      d.call.senderId = senderId ∧ peersById.lookup senderId = some peer ∧
        peer.key = d.call.key ∧ plaintext = d.call.plaintext := by
  constructor
  · rw [inspect_eq_authentic_iff, hb.frame d.framed]
    rintro ⟨frame, hf, -, -, rfl, hp, ho⟩
    obtain rfl := Option.some.inj hf
    -- what opens was sealed under the receiver's key for this sender
    obtain ⟨hk, hn, -⟩ := ha.open_only d.call.encrypted ho
    have hopen := ha.open_seal d.call.encrypted
    rw [hk, hn] at ho
    refine ⟨rfl, hp, hk, ?_⟩
    exact Option.some.inj (ho.symm.trans hopen)
  · rintro ⟨rfl, hp, hk, rfl⟩
    exact inspect_of_known hb ha.toAeadCorrect d hp hk

theorem openDatagram_datagram (hb : C.BincodeRoundTrips) (ha : C.IdealAead) (d : Datagram C)
    {peer : PeerRuntime} {msg : Message} :
    openDatagram C peersById d.bytes = .ok (peer, msg) ↔
      peersById.lookup d.call.senderId = some peer ∧ peer.key = d.call.key ∧
        msg = d.call.msg := by
  constructor
  · rw [openDatagram_eq_ok_iff]
    rintro ⟨senderId, plaintext, hi, hm⟩
    obtain ⟨rfl, hp, hk, rfl⟩ := (inspect_datagram hb ha d).mp hi
    rw [hb.message d.call.serialized] at hm
    exact ⟨hp, hk, (Except.ok.inj hm).symm⟩
  · rintro ⟨hp, hk, rfl⟩
    exact openDatagram_of_known hb ha.toAeadCorrect d hp hk

end StealthNet

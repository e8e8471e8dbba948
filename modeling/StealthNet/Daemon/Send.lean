/-
  StealthNet.Daemon.Send
  ──────────────────────
  SENDING (`send_direct`, `send_to_peer`, `forward_by_stealth`).

  A send ends in one of three ways: it fails before anything is encrypted, it
  fails after the encryption, or the socket accepts one datagram.
  `Sent.Spec` says so once, with what is known of the call; every later
  module uses the three cases and never unfolds a sender.
-/
import StealthNet.Daemon.State

namespace StealthNet

open Lib (HashMap)

variable {C : Crates}

/-! ## §1. Effects, by kind. -/

namespace Effect

/-- The datagram, if the effect is one. -/
def datagram? : Effect C → Option (Datagram C)
  | .udpSend d => some d
  | _ => none

/-- The call that encrypted, if the effect is one. -/
def call? : Effect C → Option (SendCall C)
  | .encrypted call => some call
  | _ => none

/-- The packet that was written, if one was. -/
def tunWrite? : Effect C → Option Bytes
  | .tunWrite packet => some packet
  | _ => none

end Effect

/-- The datagrams among some effects. -/
def datagrams (effects : List (Effect C)) : List (Datagram C) :=
  effects.filterMap Effect.datagram?

/-- The calls of `send_direct` among some effects. -/
def sendCalls (effects : List (Effect C)) : List (SendCall C) :=
  effects.filterMap Effect.call?

/-- The packets written to the TUN among some effects. -/
def tunWrites (effects : List (Effect C)) : List Bytes :=
  effects.filterMap Effect.tunWrite?

@[simp] theorem mem_datagrams {d : Datagram C} {effects : List (Effect C)} :
    d ∈ datagrams effects ↔ Effect.udpSend d ∈ effects := by
  simp only [datagrams, List.mem_filterMap]
  constructor
  · rintro ⟨e, he, hd⟩
    cases e <;> simp_all [Effect.datagram?]
  · intro h
    exact ⟨_, h, rfl⟩

@[simp] theorem mem_sendCalls {call : SendCall C} {effects : List (Effect C)} :
    call ∈ sendCalls effects ↔ Effect.encrypted call ∈ effects := by
  simp only [sendCalls, List.mem_filterMap]
  constructor
  · rintro ⟨e, he, hd⟩
    cases e <;> simp_all [Effect.call?]
  · intro h
    exact ⟨_, h, rfl⟩

@[simp] theorem mem_tunWrites {packet : Bytes} {effects : List (Effect C)} :
    packet ∈ tunWrites effects ↔ Effect.tunWrite packet ∈ effects := by
  simp only [tunWrites, List.mem_filterMap]
  constructor
  · rintro ⟨e, he, hd⟩
    cases e <;> simp_all [Effect.tunWrite?]
  · intro h
    exact ⟨_, h, rfl⟩

/-! ## §2. The senders. -/

/-- The result of a send with what it did. -/
structure Sent (C : Crates) where
  result : Except String Unit
  effects : List (Effect C)

/-- Fail before anything was done. -/
def Sent.fail (e : String) : Sent C := ⟨.error e, []⟩

/-- Serialize, encrypt, frame and send; each can fail. -/
def sendDirect (C : Crates) (env : Env) (senderId : String) (addr : SocketAddr) (key : Key)
    (msg : Message) : Sent C :=
  match hs : C.serializeMessage msg with
  | none => .fail "failed to serialize protocol message"
  | some plaintext =>
      match he : C.aeadSeal key env.nonce (asBytes senderId) plaintext with
      | none => .fail "encryption failed"
      | some ciphertext =>
          -- from here on the nonce is used up, whether or not a datagram leaves
          let call : SendCall C :=
            { senderId, addr, key, msg, nonce := env.nonce, plaintext, ciphertext,
              serialized := hs, encrypted := he }
          match hf : C.serializeFrame call.frame with
          | none => ⟨.error "failed to serialize outer frame", [.encrypted call]⟩
          | some bytes =>
              if env.socketAccepts then
                ⟨.ok (), [.encrypted call, .udpSend ⟨call, bytes, hf⟩]⟩
              else ⟨.error s!"failed to send datagram to {addr}", [.encrypted call]⟩

/-- Send to a peer known by its id. -/
def sendToPeer (C : Crates) (sh : Shared) (env : Env) (peerId : String) (msg : Message) :
    Sent C :=
  match sh.peersById.lookup peerId with
  | none => .fail s!"unknown peer {peerId}"
  | some peer => sendDirect C env sh.config.node.id peer.addr peer.key msg

/-- Send towards a stealth address: to the peer that has it, or through the overlay
route for it. -/
def forwardByStealth (C : Crates) (sh : Shared) (env : Env) (targetStealth : String)
    (msg : Message) : Sent C :=
  match sh.peersByStealth.lookup targetStealth with
  -- a direct peer comes before an overlay route
  | some peerId => sendToPeer C sh env peerId msg
  | none =>
      match sh.routing.nextHopVia targetStealth with
      | some via => sendToPeer C sh env via msg
      | none => .fail s!"no overlay route for stealth destination {targetStealth}"

/-- The peer `forward_by_stealth` picks for a destination. -/
def nextHop (sh : Shared) (targetStealth : String) : Option PeerRuntime :=
  match sh.peersByStealth.lookup targetStealth with
  | some peerId => sh.peersById.lookup peerId
  | none => (sh.routing.nextHopVia targetStealth).bind fun via => sh.peersById.lookup via

/-- Every next hop is a peer. -/
theorem nextHop_peer {sh : Shared} {target : String} {p : PeerRuntime}
    (h : nextHop sh target = some p) : ∃ id, sh.peersById.lookup id = some p := by
  unfold nextHop at h
  split at h
  · exact ⟨_, h⟩
  · obtain ⟨via, -, hp⟩ := Option.bind_eq_some_iff.mp h
    exact ⟨via, hp⟩

/-! ## §3. What a send comes to. -/

/-- The three ends of a send, `P` being what is known of the call. -/
inductive Sent.Spec (P : SendCall C → Prop) : Sent C → Prop
  | failed (e : String) : Spec P ⟨.error e, []⟩
  | refused (e : String) (call : SendCall C) (h : P call) :
      Spec P ⟨.error e, [.encrypted call]⟩
  | accepted (d : Datagram C) (h : P d.call) :
      Spec P ⟨.ok (), [.encrypted d.call, .udpSend d]⟩

namespace Sent.Spec

variable {P Q : SendCall C → Prop} {r : Sent C}

theorem mono (h : Sent.Spec P r) (hPQ : ∀ call, P call → Q call) : Sent.Spec Q r := by
  cases h with
  | failed e => exact failed e
  | refused e call h => exact refused e call (hPQ _ h)
  | accepted d h => exact accepted d (hPQ _ h)

theorem of_udpSend (h : Sent.Spec P r) {d : Datagram C} (hd : Effect.udpSend d ∈ r.effects) :
    P d.call ∧ r.result = .ok () := by
  cases h with
  | failed e => simp at hd
  | refused e call h => simp at hd
  | accepted d' h =>
      obtain rfl : d = d' := by simpa using hd
      exact ⟨h, rfl⟩

theorem of_encrypted (h : Sent.Spec P r) {call : SendCall C}
    (hc : Effect.encrypted call ∈ r.effects) : P call := by
  cases h with
  | failed e => simp at hc
  | refused e call' h =>
      obtain rfl : call = call' := by simpa using hc
      exact h
  | accepted d h =>
      obtain rfl : call = d.call := by simpa using hc
      exact h

/-- What is sent was encrypted by the same call. -/
theorem encrypted_of_udpSend (h : Sent.Spec P r) {d : Datagram C}
    (hd : Effect.udpSend d ∈ r.effects) : Effect.encrypted d.call ∈ r.effects := by
  cases h with
  | failed e => simp at hd
  | refused e call h => simp at hd
  | accepted d' h =>
      obtain rfl : d = d' := by simpa using hd
      simp

theorem datagrams_length (h : Sent.Spec P r) : (datagrams r.effects).length ≤ 1 := by
  cases h <;> simp [datagrams, Effect.datagram?, List.filterMap_cons]

theorem tunWrites_eq (h : Sent.Spec P r) : tunWrites r.effects = [] := by
  cases h <;> simp [tunWrites, Effect.tunWrite?, List.filterMap_cons]

theorem not_reply (h : Sent.Spec P r) {κ : RequestKind} {tx : Tx} {payload : Payload κ} :
    Effect.reply κ tx payload ∉ r.effects := by
  cases h <;> simp

/-- An accepted send emits a datagram of the call. -/
theorem exists_of_ok (h : Sent.Spec P r) (hr : r.result = .ok ()) :
    ∃ d, P d.call ∧ r.effects = [.encrypted d.call, .udpSend d] := by
  cases h with
  | failed e => simp at hr
  | refused e call h => simp at hr
  | accepted d h => exact ⟨d, h, rfl⟩

/-- A failed send emits nothing. -/
theorem datagrams_of_error (h : Sent.Spec P r) {e : String} (hr : r.result = .error e) :
    datagrams r.effects = [] := by
  cases h with
  | failed e => rfl
  | refused e call h => rfl
  | accepted d h => simp at hr

end Sent.Spec

/-- A call with the given arguments. -/
structure SendCall.With (call : SendCall C) (senderId : String) (addr : SocketAddr) (key : Key)
    (msg : Message) : Prop where
  senderId : call.senderId = senderId
  addr : call.addr = addr
  key : call.key = key
  msg : call.msg = msg

/-- A call of node `sh` that sends `msg` to `peer`. -/
abbrev SendCall.To (call : SendCall C) (sh : Shared) (peer : PeerRuntime) (msg : Message) : Prop :=
  call.With sh.config.node.id peer.addr peer.key msg

theorem sendDirect_spec (env : Env) (senderId : String) (addr : SocketAddr) (key : Key)
    (msg : Message) :
    (sendDirect C env senderId addr key msg).Spec
      fun call => call.With senderId addr key msg := by
  unfold sendDirect
  split
  · exact .failed _
  · split
    · exact .failed _
    · dsimp only
      split
      · exact .refused _ _ ⟨rfl, rfl, rfl, rfl⟩
      · rename_i bytes hf
        split
        · exact .accepted ⟨_, bytes, hf⟩ ⟨rfl, rfl, rfl, rfl⟩
        · exact .refused _ _ ⟨rfl, rfl, rfl, rfl⟩

theorem sendToPeer_spec (sh : Shared) (env : Env) (peerId : String) (msg : Message) :
    (sendToPeer C sh env peerId msg).Spec
      fun call => ∃ peer, sh.peersById.lookup peerId = some peer ∧ call.To sh peer msg := by
  unfold sendToPeer
  split
  · exact .failed _
  · rename_i peer hp
    exact (sendDirect_spec env _ _ _ msg).mono fun call h => ⟨peer, hp, h⟩

theorem forwardByStealth_spec (sh : Shared) (env : Env) (target : String) (msg : Message) :
    (forwardByStealth C sh env target msg).Spec
      fun call => ∃ peer, nextHop sh target = some peer ∧ call.To sh peer msg := by
  unfold forwardByStealth
  split
  · rename_i peerId hs
    refine (sendToPeer_spec sh env peerId msg).mono fun call h => ?_
    obtain ⟨peer, hp, hto⟩ := h
    exact ⟨peer, by simp [nextHop, hs, hp], hto⟩
  · rename_i hs
    split
    · rename_i via hv
      refine (sendToPeer_spec sh env via msg).mono fun call h => ?_
      obtain ⟨peer, hp, hto⟩ := h
      exact ⟨peer, by simp [nextHop, hs, hv, hp], hto⟩
    · -- no next hop of either kind
      exact .failed _

/-! ## §4. Sends that cannot fail. -/

/-- Serialization and encryption of what the daemon sends never fail. -/
structure Crates.Total (C : Crates) : Prop where
  serializeMessage : ∀ m, C.serializeMessage m ≠ none
  aeadSeal : ∀ k n a p, C.aeadSeal k n a p ≠ none
  serializeFrame : ∀ f, C.serializeFrame f ≠ none

theorem sendDirect_ok (hC : C.Total) (env : Env) (henv : env.socketAccepts = true)
    (senderId : String) (addr : SocketAddr) (key : Key) (msg : Message) :
    (sendDirect C env senderId addr key msg).result = .ok () := by
  unfold sendDirect
  split
  · rename_i h
    exact absurd h (hC.serializeMessage msg)
  · split
    · rename_i h
      exact absurd h (hC.aeadSeal _ _ _ _)
    · dsimp only
      split
      · rename_i h
        exact absurd h (hC.serializeFrame _)
      · rw [if_pos henv]

/-- A destination with a next hop is sent to directly. -/
theorem forwardByStealth_of_nextHop (sh : Shared) (env : Env) {target : String}
    {peer : PeerRuntime} (hp : nextHop sh target = some peer) (msg : Message) :
    forwardByStealth C sh env target msg
      = sendDirect C env sh.config.node.id peer.addr peer.key msg := by
  unfold nextHop at hp
  unfold forwardByStealth
  cases hs : sh.peersByStealth.lookup target with
  | some peerId =>
      rw [hs] at hp
      simp only at hp ⊢
      simp only [sendToPeer, hp]
  | none =>
      rw [hs] at hp
      obtain ⟨via, hv, hvp⟩ := Option.bind_eq_some_iff.mp hp
      simp only [hv, sendToPeer, hvp]

/-- Over an infallible socket, a destination with a next hop is sent to. -/
theorem forwardByStealth_ok (hC : C.Total) (sh : Shared) (env : Env)
    (henv : env.socketAccepts = true) {target : String} {peer : PeerRuntime}
    (hp : nextHop sh target = some peer) (msg : Message) :
    ∃ d : Datagram C, d.call.To sh peer msg ∧
      forwardByStealth C sh env target msg
        = ⟨.ok (), [.encrypted d.call, .udpSend d]⟩ := by
  have hok := sendDirect_ok hC env henv sh.config.node.id peer.addr peer.key msg
  obtain ⟨d, hd, heff⟩ := (sendDirect_spec env _ _ _ msg).exists_of_ok hok
  exact ⟨d, hd, by rw [forwardByStealth_of_nextHop sh env hp, ← heff, ← hok]⟩

/-- Without a next hop nothing is sent. -/
theorem forwardByStealth_none (sh : Shared) (env : Env) {target : String}
    (h : nextHop sh target = none) (msg : Message) :
    ∃ e, forwardByStealth C sh env target msg = .fail e := by
  unfold nextHop at h
  unfold forwardByStealth
  cases hs : sh.peersByStealth.lookup target with
  | some peerId =>
      rw [hs] at h
      simp only at h ⊢
      exact ⟨_, by simp only [sendToPeer, h]; rfl⟩
  | none =>
      rw [hs] at h
      cases hv : sh.routing.nextHopVia target with
      | none => exact ⟨_, rfl⟩
      | some via =>
          rw [hv] at h
          simp only [Option.bind_some] at h
          exact ⟨_, by simp only [sendToPeer, h]; rfl⟩

/-! ## §5. When a send succeeds. -/

/-- The crates encode a message: it is serialized, encrypted and framed. -/
def Crates.Encodes (C : Crates) (senderId : String) (key : Key) (nonce : Nonce) (msg : Message) :
    Prop :=
  ∃ plaintext ciphertext bytes, C.serializeMessage msg = some plaintext ∧
    C.aeadSeal key nonce (asBytes senderId) plaintext = some ciphertext ∧
    C.serializeFrame
      { magic := MAGIC, version := VERSION, senderId, nonce, ciphertext } = some bytes

theorem sendDirect_ok_iff (env : Env) (senderId : String) (addr : SocketAddr) (key : Key)
    (msg : Message) :
    (sendDirect C env senderId addr key msg).result = .ok () ↔
      C.Encodes senderId key env.nonce msg ∧ env.socketAccepts = true := by
  unfold sendDirect
  split
  · rename_i hs
    simp [Sent.fail, Crates.Encodes, hs]
  · rename_i plaintext hs
    split
    · rename_i he
      simp [Sent.fail, Crates.Encodes, hs, he]
    · rename_i ciphertext he
      dsimp only
      split
      · rename_i hf
        simp only [SendCall.frame] at hf
        simp [Crates.Encodes, hs, he, hf]
      · rename_i bytes hf
        have hencodes : C.Encodes senderId key env.nonce msg :=
          ⟨plaintext, ciphertext, bytes, hs, he, hf⟩
        split
        · rename_i haccepts
          simp [hencodes, haccepts]
        · rename_i haccepts
          simp [haccepts]

/-- A message can be sent towards a stealth: some peer is the next hop, the
crates encode the message for it, and the socket accepts the datagram. -/
def CanForward (C : Crates) (sh : Shared) (env : Env) (target : String) (msg : Message) : Prop :=
  ∃ peer, nextHop sh target = some peer ∧
    C.Encodes sh.config.node.id peer.key env.nonce msg ∧ env.socketAccepts = true

theorem forwardByStealth_ok_iff (sh : Shared) (env : Env) (target : String) (msg : Message) :
    (forwardByStealth C sh env target msg).result = .ok () ↔ CanForward C sh env target msg := by
  unfold CanForward
  cases hp : nextHop sh target with
  | none =>
      obtain ⟨e, he⟩ := forwardByStealth_none (C := C) sh env hp msg
      simp [he, Sent.fail]
  | some peer =>
      rw [forwardByStealth_of_nextHop sh env hp, sendDirect_ok_iff]
      simp

end StealthNet

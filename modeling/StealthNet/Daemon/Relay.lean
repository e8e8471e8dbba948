/-
  StealthNet.Daemon.Relay
  ───────────────────────
  THE RELAY LAW AND THE INVERSION OF `handle_datagram`.

  Six kinds of message are addressed: to a stealth, with a ttl.  A node that
  such a message is not for passes it on (`PassesOn`), and `dispatch_relay`
  says what that means in one line for all six kinds.

  `dispatch_handled` says once everything a received message can do to a
  node.  Every invariant of a run is derived from its five cases; no later
  proof unfolds an arm of the handler.
-/
import StealthNet.Daemon.Datagram

namespace StealthNet

open Lib (HashMap)

variable {C : Crates}

/-! ## §1. Addressed messages. -/

namespace Message

/-- The stealth a relayed message is for. -/
def relayTarget : Message → Option String
  | .clientRegister m => some m.targetGatewayStealth
  | .data m => some m.dstStealth
  | .pingReq m => some m.targetStealth
  | .pingResp m => some m.dstStealth
  | .publicClientsReq m => some m.targetStealth
  | .publicClientsResp m => some m.dstStealth
  | _ => none

/-- The same message with another ttl. -/
def withTtl (ttl : UInt8) : Message → Message
  | .keepalive m => .keepalive { m with ttl }
  | .clientRegister m => .clientRegister { m with ttl }
  | .clientRegisterAck m => .clientRegisterAck { m with ttl }
  | .data m => .data { m with ttl }
  | .pingReq m => .pingReq { m with ttl }
  | .pingResp m => .pingResp { m with ttl }
  | .publicClientsReq m => .publicClientsReq { m with ttl }
  | .publicClientsResp m => .publicClientsResp { m with ttl }
  | m => m

/-- The least ttl with which a relay forwards: Data needs one more. -/
def minTtl : Message → Nat
  | .data _ => 2
  | _ => 1

theorem one_le_minTtl (m : Message) : 1 ≤ m.minTtl := by
  cases m <;> simp [minTtl]

@[simp] theorem relayTarget_withTtl (m : Message) (ttl : UInt8) :
    (m.withTtl ttl).relayTarget = m.relayTarget := by
  cases m <;> rfl

@[simp] theorem minTtl_withTtl (m : Message) (ttl : UInt8) :
    (m.withTtl ttl).minTtl = m.minTtl := by
  cases m <;> rfl

theorem ttl_withTtl {m : Message} {target : String} (h : m.relayTarget = some target)
    (ttl : UInt8) : (m.withTtl ttl).ttl = ttl := by
  cases m <;> first | rfl | simp [relayTarget] at h

@[simp] theorem withTtl_withTtl (m : Message) (a b : UInt8) :
    (m.withTtl a).withTtl b = m.withTtl b := by
  cases m <;> rfl

theorem withTtl_ttl (m : Message) : m.withTtl m.ttl = m := by
  cases m <;> rfl

end Message

/-- A node passes an addressed message on: it is for another stealth, and an
inner packet is for none of the node's own prefixes. -/
structure PassesOn (sh : Shared) (m : Message) (target : String) : Prop where
  addressed : m.relayTarget = some target
  other : target ≠ sh.localStealth
  inner : ∀ data, m = .data data →
    ∃ dst, packetDestination data.innerPacket = some dst ∧ sh.routing.ownsIp dst = false

theorem PassesOn.withTtl {sh : Shared} {m : Message} {target : String}
    (h : PassesOn sh m target) (ttl : UInt8) : PassesOn sh (m.withTtl ttl) target := by
  refine ⟨by simpa using h.addressed, h.other, ?_⟩
  intro data hd
  cases m with
  | data d =>
      obtain rfl : { d with ttl } = data := by simpa [Message.withTtl] using hd
      exact h.inner d rfl
  | _ => simp [Message.withTtl] at hd

theorem decrementTtl_ok {ttl : UInt8} (h : ttl ≠ 0) : decrementTtl ttl = .ok (ttl - 1) := by
  simp [decrementTtl, h]

theorem ne_zero_iff_one_le {ttl : UInt8} : ttl ≠ 0 ↔ 1 ≤ ttl.toNat := by
  rw [Nat.one_le_iff_ne_zero, ne_eq, ne_eq, ← UInt8.toNat_inj]
  simp

theorem one_lt_iff_two_le {ttl : UInt8} : 1 < ttl ↔ 2 ≤ ttl.toNat := by
  rw [UInt8.lt_iff_toNat_lt]
  simp
  omega

theorem toNat_sub_one {ttl : UInt8} (h : ttl ≠ 0) : (ttl - 1).toNat + 1 = ttl.toNat := by
  have hpos := ne_zero_iff_one_le.mp h
  have hle : (1 : UInt8) ≤ ttl := by
    rw [UInt8.le_iff_toNat_le]
    simpa using hpos
  rw [UInt8.toNat_sub_of_le _ _ hle]
  simp
  omega

/-- A ttl that suffices to forward can be lowered. -/
theorem Message.ne_zero_of_minTtl {m : Message} {ttl : UInt8} (h : m.minTtl ≤ ttl.toNat) :
    ttl ≠ 0 := by
  have hone := m.one_le_minTtl
  exact ne_zero_iff_one_le.mpr (by omega)

theorem relay_of_ne_zero (sh : Shared) (env : Env) (t : Tables) {ttl : UInt8} (h : ttl ≠ 0)
    (target : String) (rebuild : UInt8 → Message) :
    relay C sh env t ttl target rebuild
      = .ofSent t (forwardByStealth C sh env target (rebuild (ttl - 1))) := by
  simp [relay, decrementTtl_ok h]

/-! ## §2. The relay law. -/

/-- The arm for Data differs from the others: it tests the inner destination
first, and forwards from ttl 2 on. -/
theorem handleData_of_other (sh : Shared) (env : Env) (t : Tables) {data : DataMsg} {dst : IpAddr}
    (hdst : packetDestination data.innerPacket = some dst)
    (hother : data.dstStealth ≠ sh.localStealth) (hown : sh.routing.ownsIp dst = false) :
    handleData C sh env t data
      = if 2 ≤ data.ttl.toNat then
          .ofSent t (forwardByStealth C sh env data.dstStealth
            (.data { data with ttl := data.ttl - 1 }))
        else .done t := by
  have hlocal : (data.dstStealth == sh.localStealth || sh.routing.ownsIp dst) = false := by
    simp [hother, hown]
  unfold handleData
  by_cases henough : 2 ≤ data.ttl.toNat
  · have hne : data.ttl ≠ 0 := ne_zero_iff_one_le.mpr (by omega)
    rw [if_pos henough]
    simp only [hdst, hlocal, one_lt_iff_two_le.mpr henough, if_true, relay_of_ne_zero sh env t hne]
    rfl
  · have hlow : ¬ 1 < data.ttl := fun h => henough (one_lt_iff_two_le.mp h)
    rw [if_neg henough]
    simp only [hdst, hlocal, if_neg hlow]
    rfl

/-- The relay law: with enough ttl, forward the same message with the ttl one
lower; otherwise nothing. -/
theorem dispatch_relay (sh : Shared) (env : Env) (t : Tables) (peer : PeerRuntime)
    {m : Message} {target : String} (h : PassesOn sh m target) :
    dispatch C sh env t peer m
      = if m.minTtl ≤ m.ttl.toNat then
          .ofSent t (forwardByStealth C sh env target (m.withTtl (m.ttl - 1)))
        else .done t := by
  obtain ⟨htarget, hother, hinner⟩ := h
  cases m with
  | keepalive _ | bootstrapReq _ | bootstrapResp _ | clientRegisterAck _ | error _ =>
      -- not addressed to a stealth
      simp [Message.relayTarget] at htarget
  | data data =>
      obtain rfl : data.dstStealth = target := by simpa [Message.relayTarget] using htarget
      obtain ⟨dst, hdst, hown⟩ := hinner data rfl
      exact handleData_of_other sh env t hdst hother hown
  | clientRegister m | pingReq m | pingResp m | publicClientsReq m | publicClientsResp m =>
      -- the five arms that test the ttl first
      simp only [Message.relayTarget, Option.some.injEq] at htarget
      subst htarget
      split
      · rename_i henough
        have hne : m.ttl ≠ 0 := ne_zero_iff_one_le.mpr henough
        simp only [dispatch, handleClientRegister, handlePingReq, handlePingResp,
          handlePublicClientsReq, handlePublicClientsResp, if_neg hne, if_neg hother,
          relay_of_ne_zero sh env t hne]
        rfl
      · rename_i henough
        have hzero : m.ttl = 0 := by
          by_contra hne
          exact henough (ne_zero_iff_one_le.mp hne)
        simp only [dispatch, handleClientRegister, handlePingReq, handlePingResp,
          handlePublicClientsReq, handlePublicClientsResp, if_pos hzero]

/-! ## §3. Everything a received message can do. -/

section

variable (sh : Shared) (env : Env) (t : Tables) (peer : PeerRuntime)

/-- In answer to a message of `peer`, the node sends a message to a peer `p`. -/
inductive Emits : Message → PeerRuntime → Message → Prop
  | granted {req : BootstrapReq} {p : PeerRuntime}
      (hgateway : roleIsGateway sh.config = true)
      (htarget : req.targetGatewayStealth = sh.localStealth)
      (hp : sh.peersById.lookup peer.cfg.id = some p) :
      Emits (.bootstrapReq req) p (.bootstrapResp (grant sh req))
  | acknowledged {reg : ClientRegister} {p : PeerRuntime} (httl : reg.ttl ≠ 0)
      (htarget : reg.targetGatewayStealth = sh.localStealth)
      (hp : nextHop sh reg.srcStealth = some p) :
      Emits (.clientRegister reg) p (.clientRegisterAck (registerAck sh reg))
  | ponged {ping : PingReq} {p : PeerRuntime} (httl : ping.ttl ≠ 0)
      (htarget : ping.targetStealth = sh.localStealth)
      (hp : nextHop sh ping.srcStealth = some p) :
      Emits (.pingReq ping) p (.pingResp (pingResponse sh ping))
  | published {req : PublicClientsReq} {p : PeerRuntime} (httl : req.ttl ≠ 0)
      (htarget : req.targetStealth = sh.localStealth)
      (hp : nextHop sh req.srcStealth = some p) :
      Emits (.publicClientsReq req) p (.publicClientsResp (clientsResponse sh env t req))
  | relayed {m : Message} {target : String} {p : PeerRuntime} (hpass : PassesOn sh m target)
      (httl : m.minTtl ≤ m.ttl.toNat) (hp : nextHop sh target = some p) :
      Emits m p (m.withTtl (m.ttl - 1))

/-- A response for this node, with the payload its request waits for. -/
inductive Answers : Message → (κ : RequestKind) → UInt64 → Payload κ → Prop
  | ping {pong : PingResp} (httl : pong.ttl ≠ 0) (hdst : pong.dstStealth = sh.localStealth) :
      Answers (.pingResp pong) .ping pong.requestId (pingResult env pong)
  | clients {resp : PublicClientsResp} (httl : resp.ttl ≠ 0)
      (hdst : resp.dstStealth = sh.localStealth) :
      Answers (.publicClientsResp resp) .clients resp.requestId
        (resp.gatewayStealth, resp.clients)

/-- The tables after a message, apart from an answered request. -/
def registered : Message → Tables
  | .clientRegister reg =>
      if reg.ttl ≠ 0 ∧ reg.targetGatewayStealth = sh.localStealth then t.register reg else t
  | _ => t

/-- Only a registration for this node registers. -/
theorem registered_of_not {m : Message}
    (h : ∀ reg, m = .clientRegister reg → reg.ttl ≠ 0 → reg.targetGatewayStealth ≠ sh.localStealth) :
    registered sh t m = t := by
  cases m with
  | clientRegister reg => exact if_neg fun hreg => h reg rfl hreg.1 hreg.2
  | _ => rfl

/-- What a message can do to a node: nothing, fail, one send, one write to the
TUN, or answer a pending request. -/
inductive Handled (m : Message) : Outcome C → Prop
  | ignored : Handled m (.done t)
  | failed (e : String) : Handled m (.fail t e)
  | sent (r : Sent C)
      (h : r.Spec fun call => ∃ p, Emits sh env t peer m p call.msg ∧ call.To sh p call.msg) :
      Handled m (.ofSent (registered sh t m) r)
  | written (data : DataMsg) (dst : IpAddr) (hm : m = .data data)
      (hdst : packetDestination data.innerPacket = some dst)
      (hlocal : data.dstStealth = sh.localStealth ∨ sh.routing.ownsIp dst = true)
      (htun : sh.tun.isSome = true) :
      Handled m ⟨.ok (), t, [.tunWrite data.innerPacket]⟩
  | answered (κ : RequestKind) (id : UInt64) (payload : Payload κ)
      (h : Answers sh env m κ id payload) :
      Handled m (answerPending C t κ id payload)

end

section

variable {sh : Shared} {env : Env} {t : Tables} {peer : PeerRuntime}

/-- A send along the next hop of a destination. -/
theorem Handled.of_forward {m m' : Message} {target : String} (t' : Tables)
    (ht' : t' = registered sh t m)
    (h : ∀ p, nextHop sh target = some p → Emits sh env t peer m p m') :
    Handled sh env t peer m (.ofSent t' (forwardByStealth C sh env target m')) := by
  subst ht'
  refine .sent _ ((forwardByStealth_spec sh env target m').mono ?_)
  rintro call ⟨p, hp, hto⟩
  exact ⟨p, hto.msg ▸ h p hp, hto.msg ▸ hto⟩

theorem Handled.of_passesOn {m : Message} {target : String} (h : PassesOn sh m target)
    (ht : registered sh t m = t) :
    Handled sh env t peer m (dispatch C sh env t peer m) := by
  rw [dispatch_relay sh env t peer h]
  split
  · rename_i henough
    exact .of_forward t ht.symm fun p hp => .relayed h henough hp
  · exact .ignored

/-- Data is written, or passed on. -/
theorem handleData_handled (data : DataMsg) :
    Handled sh env t peer (.data data) (dispatch C sh env t peer (.data data)) := by
  cases hdst : packetDestination data.innerPacket with
  | none =>
      simp only [dispatch, handleData, hdst]
      exact .failed _
  | some dst =>
      by_cases hlocal : data.dstStealth = sh.localStealth ∨ sh.routing.ownsIp dst = true
      · have hlocal' : (data.dstStealth == sh.localStealth || sh.routing.ownsIp dst) = true := by
          simpa using hlocal
        simp only [dispatch, handleData, hdst, hlocal', if_true]
        cases htun : sh.tun with
        | none => exact .failed _
        | some tun => exact .written data dst rfl hdst hlocal (by simp [htun])
      · rw [not_or, Bool.not_eq_true] at hlocal
        refine .of_passesOn ⟨rfl, hlocal.1, ?_⟩ rfl
        intro d hd
        obtain rfl := Message.data.inj hd
        exact ⟨dst, hdst, hlocal.2⟩

/-- The arms of the handler, inverted. -/
theorem dispatch_handled (m : Message) :
    Handled sh env t peer m (dispatch C sh env t peer m) := by
  cases m with
  | keepalive _ | bootstrapResp _ | clientRegisterAck _ | error _ => exact .ignored
  | bootstrapReq req =>
      simp only [dispatch, handleBootstrapReq]
      split
      · rename_i h
        -- the response goes to the sender of the datagram, whatever node it names
        refine .sent _ ((sendToPeer_spec sh env _ _).mono ?_)
        rintro call ⟨p, hp, hto⟩
        exact ⟨p, hto.msg ▸ .granted h.1 h.2 hp, hto.msg ▸ hto⟩
      · exact .ignored
  | clientRegister reg =>
      by_cases htarget : reg.targetGatewayStealth = sh.localStealth
      · simp only [dispatch, handleClientRegister]
        split
        · exact .ignored
        · rename_i httl
          -- registered before the acknowledgement is sent
          refine .of_forward _ ?_ fun p hp => .acknowledged httl htarget hp
          simp [registered, httl, htarget]
      · exact .of_passesOn ⟨rfl, htarget, by simp⟩ (by simp [registered, htarget])
  | data data => exact handleData_handled data
  | pingReq ping =>
      by_cases htarget : ping.targetStealth = sh.localStealth
      · simp only [dispatch, handlePingReq]
        split
        · exact .ignored
        · rename_i httl
          exact .of_forward t rfl fun p hp => .ponged httl htarget hp
      · exact .of_passesOn ⟨rfl, htarget, by simp⟩ rfl
  | pingResp pong =>
      by_cases hdst : pong.dstStealth = sh.localStealth
      · simp only [dispatch, handlePingResp]
        split
        · exact .ignored
        · rename_i httl
          exact .answered .ping _ _ (.ping httl hdst)
      · exact .of_passesOn ⟨rfl, hdst, by simp⟩ rfl
  | publicClientsReq req =>
      by_cases htarget : req.targetStealth = sh.localStealth
      · simp only [dispatch, handlePublicClientsReq]
        split
        · exact .ignored
        · rename_i httl
          exact .of_forward t rfl fun p hp => .published httl htarget hp
      · exact .of_passesOn ⟨rfl, htarget, by simp⟩ rfl
  | publicClientsResp resp =>
      by_cases hdst : resp.dstStealth = sh.localStealth
      · simp only [dispatch, handlePublicClientsResp]
        split
        · exact .ignored
        · rename_i httl
          exact .answered .clients _ _ (.clients httl hdst)
      · exact .of_passesOn ⟨rfl, hdst, by simp⟩ rfl

/-! ## §4. What the cases give. -/

/-- A message is sent to a peer of the node. -/
theorem Emits.to_peer {m m' : Message} {p : PeerRuntime} (h : Emits sh env t peer m p m') :
    ∃ id, sh.peersById.lookup id = some p := by
  cases h with
  | granted _ _ hp => exact ⟨_, hp⟩
  | acknowledged _ _ hp | ponged _ _ hp | published _ _ hp | relayed _ _ hp =>
      exact nextHop_peer hp

/-- Data is sent only in answer to Data, and only its ttl differs. -/
theorem Emits.data_inv {m : Message} {p : PeerRuntime} {data' : DataMsg}
    (h : Emits sh env t peer m p (.data data')) :
    ∃ data, m = .data data ∧ data' = { data with ttl := data.ttl - 1 } := by
  generalize hm' : Message.data data' = m' at h
  cases h with
  | granted | acknowledged | ponged | published => cases hm'
  | relayed _ _ _ =>
      cases m with
      | data d =>
          simp only [Message.withTtl, Message.data.injEq] at hm'
          exact ⟨d, rfl, hm'⟩
      | _ => simp [Message.withTtl] at hm'

/-- So is a registration. -/
theorem Emits.clientRegister_inv {m : Message} {p : PeerRuntime} {reg' : ClientRegister}
    (h : Emits sh env t peer m p (.clientRegister reg')) :
    ∃ reg, m = .clientRegister reg ∧ reg' = { reg with ttl := reg.ttl - 1 } := by
  generalize hm' : Message.clientRegister reg' = m' at h
  cases h with
  | granted | acknowledged | ponged | published => cases hm'
  | relayed _ _ _ =>
      cases m with
      | clientRegister reg =>
          simp only [Message.withTtl, Message.clientRegister.injEq] at hm'
          exact ⟨reg, rfl, hm'⟩
      | _ => simp [Message.withTtl] at hm'

namespace Handled

variable {m : Message} {o : Outcome C}

theorem of_udpSend (h : Handled sh env t peer m o) {d : Datagram C}
    (hd : Effect.udpSend d ∈ o.effects) :
    ∃ p, Emits sh env t peer m p d.call.msg ∧ d.call.To sh p d.call.msg := by
  cases h with
  | ignored | failed | written => simp [Outcome.done, Outcome.fail] at hd
  | sent r hr => exact (hr.of_udpSend hd).1
  | answered κ id payload _ =>
      simp only [answerPending] at hd
      split at hd <;> simp [Outcome.done] at hd

theorem of_encrypted (h : Handled sh env t peer m o) {call : SendCall C}
    (hc : Effect.encrypted call ∈ o.effects) :
    ∃ p, Emits sh env t peer m p call.msg ∧ call.To sh p call.msg := by
  cases h with
  | ignored | failed | written => simp [Outcome.done, Outcome.fail] at hc
  | sent r hr => exact hr.of_encrypted hc
  | answered κ id payload _ =>
      simp only [answerPending] at hc
      split at hc <;> simp [Outcome.done] at hc

theorem encrypted_of_udpSend (h : Handled sh env t peer m o) {d : Datagram C}
    (hd : Effect.udpSend d ∈ o.effects) : Effect.encrypted d.call ∈ o.effects := by
  cases h with
  | ignored | failed | written => simp [Outcome.done, Outcome.fail] at hd
  | sent r hr => exact hr.encrypted_of_udpSend hd
  | answered κ id payload _ =>
      simp only [answerPending] at hd
      split at hd <;> simp [Outcome.done] at hd

/-- Only Data for this node reaches its TUN. -/
theorem of_tunWrite (h : Handled sh env t peer m o) {packet : Bytes}
    (hw : Effect.tunWrite packet ∈ o.effects) :
    ∃ data dst, m = .data data ∧ packet = data.innerPacket ∧
      packetDestination packet = some dst ∧
      (data.dstStealth = sh.localStealth ∨ sh.routing.ownsIp dst = true) := by
  cases h with
  | ignored | failed => simp [Outcome.done, Outcome.fail] at hw
  | sent r hr =>
      -- senders write to no TUN
      have hnil := hr.tunWrites_eq
      have : packet ∈ tunWrites r.effects := mem_tunWrites.mpr hw
      rw [hnil] at this
      simp at this
  | written data dst hm hdst hlocal _ =>
      obtain rfl : packet = data.innerPacket := by simpa using hw
      exact ⟨data, dst, hm, rfl, hdst, hlocal⟩
  | answered κ id payload _ =>
      simp only [answerPending] at hw
      split at hw <;> simp [Outcome.done] at hw

/-- One message causes at most one datagram or one write to the TUN. -/
theorem effects_bound (h : Handled sh env t peer m o) :
    (datagrams o.effects).length + (tunWrites o.effects).length ≤ 1 := by
  cases h with
  | ignored | failed => simp [Outcome.done, Outcome.fail, datagrams, tunWrites]
  | sent r hr =>
      have h1 := hr.datagrams_length
      have h2 := hr.tunWrites_eq
      simp only [Outcome.ofSent, h2, List.length_nil]
      omega
  | written =>
      simp [datagrams, tunWrites, Effect.datagram?, Effect.tunWrite?, List.filterMap_cons]
  | answered κ id payload _ =>
      simp only [answerPending]
      split <;> simp [Outcome.done, datagrams, tunWrites, Effect.datagram?, Effect.tunWrite?,
        List.filterMap_cons]

/-- No ttl subtraction underflows. -/
theorem result_ne_overflow (h : Handled sh env t peer m o) :
    o.result ≠ .error .overflow := by
  cases h with
  | ignored | failed | written => simp [Outcome.done, Outcome.fail]
  | sent r hr =>
      simp only [Outcome.ofSent]
      split <;> simp
  | answered κ id payload _ =>
      simp only [answerPending]
      split <;> simp [Outcome.done]

end Handled

end

end StealthNet

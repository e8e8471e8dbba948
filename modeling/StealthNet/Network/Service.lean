/-
  StealthNet.Network.Service
  ──────────────────────────
  WHAT THE NETWORK IS FOR.

  Seen from its ends the network is a post office.  The nodes are the ones of
  `Network.Basic`; what a node sends it posts, and a node that a posted letter
  is for may take it, late, several times or never.  There are no relays, no
  bytes, no keys and nobody else: a letter is what its sender made it.

  A message that is addressed by a stealth is for every node that holds the
  stealth, or owns the destination of its inner packet; any other message is
  for the peer it was sent to, by its id.  Of an addressed message relays
  change the ttl, so a letter says nothing of it (`Message.content`).

    §1  handing a message to a node;
    §2  letters and the service;
    §3  what can be seen.
-/
import StealthNet.Network.Jobs

namespace StealthNet

open Lib (HashMap)

variable {C : Crates} {ι : Type}

/-! ## §1. Handing a message to a node. -/

/-- What a node does with a message of `peer`, once it is opened. -/
def Phase.take (C : Crates) (env : Env) (peer : PeerRuntime) (m : Message) :
    Phase → Phase × Activity C
  | .booting config peers requestId =>
      let did : Activity C := ⟨some (peer, m), none, []⟩
      match m with
      | .bootstrapResp resp =>
          if resp.requestId = requestId then
            match concludeBootstrap config resp with
            | (.error _, _) => (.failed, did)
            | (.ok (), config) => (.launch C env config peers, did)
          else (.booting config peers requestId, did)
      | .error _ => (.failed, did)
      | _ => (.booting config peers requestId, did)
  | .running sh rt =>
      let o := dispatch C sh env rt.tables peer m
      (.running sh (rt.settle o), ⟨some (peer, m), none, o.effects⟩)
  | .stopped => (.stopped, .idle)
  | .failed => (.failed, .idle)

/-- The peers whose datagrams a node opens. -/
def Phase.peersById : Phase → Option (HashMap String PeerRuntime)
  | .booting _ peers _ => some peers.byId
  | .running sh _ => some sh.peersById
  | .stopped => none
  | .failed => none

theorem Phase.BuiltFrom.peersById {identity : Identity} {config : Config} {p : Phase}
    (h : p.BuiltFrom C identity config) {table : HashMap String PeerRuntime}
    (htable : p.peersById = some table) :
    ∃ peers, peerTables C identity config = .ok peers ∧ table = peers.byId := by
  cases p with
  | stopped | failed => cases htable
  | booting config' peers requestId =>
      obtain rfl := Option.some.inj htable
      exact ⟨peers, h.2, rfl⟩
  | running sh rt =>
      obtain rfl := Option.some.inj htable
      obtain ⟨peers, hpeers, hbyId, -⟩ := h.peers
      exact ⟨peers, hpeers, hbyId⟩

/-- How the bootstrap decodes what opens. -/
theorem decodeBootstrapResponse_of_open {table : HashMap String PeerRuntime} {packet : Bytes}
    {peer : PeerRuntime} {m : Message} (h : openDatagram C table packet = .ok (peer, m))
    (config : Config) (requestId : UInt64) :
    decodeBootstrapResponse C config table packet requestId
      = match m with
        | .bootstrapResp resp => if resp.requestId = requestId then .ok (some resp) else .ok none
        | .error err => .error s!"bootstrap error: {err.message}"
        | _ => .ok none := by
  obtain ⟨senderId, plaintext, hinspect, hm⟩ := openDatagram_eq_ok_iff.mp h
  rw [decodeBootstrapResponse_eq, hinspect]
  simp only [hm]
  cases m <;> rfl

/-- A datagram that opens is taken as the message in it. -/
theorem Phase.receive_eq_take {env : Env} {packet : Bytes} {p : Phase}
    {table : HashMap String PeerRuntime} (htable : p.peersById = some table) {peer : PeerRuntime}
    {m : Message} (h : openDatagram C table packet = .ok (peer, m)) :
    p.receive C env packet = p.take C env peer m := by
  cases p with
  | stopped | failed => cases htable
  | running sh rt =>
      obtain rfl := Option.some.inj htable
      show (_, _) = (_, _)
      rw [handleDatagram, h]
      rfl
  | booting config peers requestId =>
      obtain rfl := Option.some.inj htable
      simp only [Phase.receive, Phase.take, decodeBootstrapResponse_of_open h config requestId, h,
        Except.toOption]
      cases m with
      | bootstrapResp resp =>
          dsimp only
          by_cases hid : resp.requestId = requestId
          · rw [if_pos hid]
            exact (if_pos hid).symm
          · rw [if_neg hid, if_neg hid]
      | _ => rfl

/-- A datagram that does not open leaves the node as it is, or ends its
bootstrap. -/
theorem Phase.receive_of_closed (env : Env) {packet : Bytes} {p : Phase}
    (h : ∀ table, p.peersById = some table → ∃ e, openDatagram C table packet = .error e) :
    (p.receive C env packet).2 = .idle ∧
      ((p.receive C env packet).1 = p ∨
        (p.receive C env packet).1 = .failed ∧
          ∃ config peers requestId, p = .booting config peers requestId) := by
  cases p with
  | stopped | failed => exact ⟨rfl, Or.inl rfl⟩
  | running sh rt =>
      obtain ⟨e, hopen⟩ := h _ rfl
      simp only [Phase.receive, handleDatagram, hopen]
      exact ⟨rfl, Or.inl rfl⟩
  | booting config peers requestId =>
      obtain ⟨e, hopen⟩ := h _ rfl
      have hdid : (⟨(openDatagram C peers.byId packet).toOption, none, []⟩ : Activity C) = .idle := by
        rw [hopen]
        rfl
      simp only [Phase.receive, hdid]
      cases hdecode : decodeBootstrapResponse C config peers.byId packet requestId with
      | error e => exact ⟨rfl, Or.inr ⟨rfl, config, peers, requestId, rfl⟩⟩
      | ok found =>
          cases found with
          | none => exact ⟨rfl, Or.inl rfl⟩
          | some resp =>
              obtain ⟨peer, hopen'⟩ := openDatagram_of_decode hdecode
              rw [hopen] at hopen'
              cases hopen'

/-! ## §2. Letters and the service. -/

/-- What relays leave of a message as it is. -/
def Message.content (m : Message) : Message := m.withTtl 0

@[simp] theorem Message.content_withTtl (m : Message) (ttl : UInt8) :
    (m.withTtl ttl).content = m.content := m.withTtl_withTtl ttl 0

/-- A posted message: by whom, and for the peer with which id where no stealth
says it. -/
structure Letter (ι : Type) where
  sender : ι
  receiver : Option String
  content : Message

/-- Node `i` called `send_direct` with what it has of the peer with this id. -/
def SentTo (net : Net ι) (i : ι) (peerId : String) (call : SendCall C) : Prop :=
  ∃ peers p, peerTables C (net.identity i) (net.config i) = .ok peers ∧
    peers.byId.lookup peerId = some p ∧
    call.With (net.config i).node.id p.addr p.key call.msg

/-- The letters a call of node `i` posts. -/
inductive Posts (net : Net ι) (i : ι) (call : SendCall C) : Letter ι → Prop
  | addressed {target : String} (h : call.msg.relayTarget = some target) :
      Posts net i call ⟨i, none, call.msg.content⟩
  | direct {peerId : String} (h : call.msg.relayTarget = none) (hto : SentTo net i peerId call) :
      Posts net i call ⟨i, some peerId, call.msg.content⟩

/-- A message that is addressed by a stealth is for this node. -/
def IsFor (sh : Shared) (m : Message) : Prop :=
  m.relayTarget = some sh.localStealth ∨
    ∃ data dst, m = .data data ∧ packetDestination data.innerPacket = some dst ∧
      sh.routing.ownsIp dst = true

/-- An addressed message is passed on, or for the node, or Data that does not
parse. -/
theorem passesOn_or_isFor {m : Message} {target : String} (h : m.relayTarget = some target)
    (sh : Shared) :
    PassesOn sh m target ∨ IsFor sh m ∨
      ∃ data, m = .data data ∧ packetDestination data.innerPacket = none := by
  by_cases hlocal : target = sh.localStealth
  · exact Or.inr (Or.inl (Or.inl (hlocal ▸ h)))
  · cases m with
    | data data =>
        cases hdst : packetDestination data.innerPacket with
        | none => exact Or.inr (Or.inr ⟨data, rfl, hdst⟩)
        | some dst =>
            by_cases howns : sh.routing.ownsIp dst = true
            · exact Or.inr (Or.inl (Or.inr ⟨data, dst, rfl, hdst, howns⟩))
            · refine Or.inl ⟨h, hlocal, ?_⟩
              intro data' hdata
              obtain rfl := Message.data.inj hdata
              exact ⟨dst, hdst, Bool.not_eq_true _ ▸ howns⟩
    | _ => exact Or.inl ⟨h, hlocal, fun data hdata => by cases hdata⟩

/-- The nodes, and what has been posted so far. -/
structure Service (ι : Type) where
  node : ι → Phase
  posted : Set (Letter ι)

/-- Nobody has started, and nothing is posted. -/
def Service.init (ι : Type) : Service ι := ⟨fun _ => .stopped, ∅⟩

/-- A letter is for node `i`, which is handed `m` as coming from `peer`. -/
inductive Letter.IsFor (net : Net ι) (a : Service ι) (x : Letter ι) (i : ι) (peer : PeerRuntime)
    (m : Message) : Prop
  | direct (hreceiver : x.receiver = some (net.config i).node.id)
      (hpeer : peer.cfg.id = (net.config x.sender).node.id)
  | addressed {sh : Shared} {rt : Runtime} (hreceiver : x.receiver = none)
      (hi : a.node i = .running sh rt) (hfor : StealthNet.IsFor sh m)

namespace Service

/-- A step: of a node by itself, of a node with a letter, or of a client that
stops waiting. -/
inductive Label (C : Crates) (ι : Type)
  | act (i : ι) (ev : LocalEvent) (env : Env) (did : Activity C)
  | take (i : ι) (env : Env) (did : Activity C)
  | giveUp (i : ι)

variable [DecidableEq ι]

/-- Node `i` moves on and its calls are posted. -/
def after (net : Net ι) (a : Service ι) (i : ι) (p : Phase) (effects : List (Effect C)) :
    Service ι :=
  { node := Function.update a.node i p
    posted := a.posted ∪ {x | ∃ call, Effect.encrypted call ∈ effects ∧ Posts net i call x} }

/-- The steps of the service. -/
inductive Step (net : Net ι) (a : Service ι) : Label C ι → Service ι → Prop
  | act {i : ι} {ev : LocalEvent} {env : Env} {p : Phase} {did : Activity C}
      (h : (a.node i).act C env (net.identity i) (net.config i) ev = some (p, did)) :
      Step net a (.act i ev env did) (a.after net i p did.effects)
  | take {i : ι} {x : Letter ι} {peer : PeerRuntime} {m : Message} {env : Env} {p : Phase}
      {did : Activity C} (hx : x ∈ a.posted) (hm : m.content = x.content)
      (hfor : x.IsFor net a i peer m) (hlisten : (a.node i).listens = true)
      (h : (a.node i).take C env peer m = (p, did)) :
      Step net a (.take i env did) (a.after net i p did.effects)
  | giveUp {i : ι} {config : Config} {peers : PeerTables} {requestId : UInt64}
      (h : a.node i = .booting config peers requestId) :
      -- a client may stop waiting at any time
      Step net a (.giveUp i) (a.after (C := C) net i .failed [])

end Service

/-! ## §3. What can be seen. -/

/-- What a node does at its ends: its TUN, the ids its admin threads draw, and
the replies for them. -/
inductive Seen (ι : Type)
  | read (i : ι) (packet : Bytes)
  | wrote (i : ι) (packet : Bytes)
  | drew (i : ι) (ticket : Ticket)
  | replied (i : ι) (κ : RequestKind) (tx : Tx) (payload : Payload κ)

/-- What an effect shows. -/
def Effect.seen? (i : ι) : Effect C → Option (Seen ι)
  | .tunWrite packet => some (.wrote i packet)
  | .reply κ tx payload => some (.replied i κ tx payload)
  | _ => none

/-- What an event shows. -/
def LocalEvent.see (i : ι) : LocalEvent → List (Seen ι)
  | .tunRead packet => [.read i packet]
  | _ => []

/-- What a node shows in a step. -/
def Activity.see (did : Activity C) (i : ι) : List (Seen ι) :=
  (did.drew.map (Seen.drew i)).toList ++ did.effects.filterMap (Effect.seen? i)

/-- What a step of the network shows. -/
def Label.see : Label C ι → List (Seen ι)
  | .act i ev _ did => ev.see i ++ did.see i
  | .deliver i _ _ _ did => did.see i
  | .inject i _ _ did => did.see i
  | .drop _ => []

/-- What a step of the service shows. -/
def Service.Label.see : Service.Label C ι → List (Seen ι)
  | .act i ev _ did => ev.see i ++ did.see i
  | .take i _ did => did.see i
  | .giveUp _ => []

/-- Sending shows nothing. -/
theorem Sent.Spec.see {P : SendCall C → Prop} {r : Sent C} (h : r.Spec P) (i : ι) :
    r.effects.filterMap (Effect.seen? i) = [] := by
  cases h with
  | failed | refused | accepted => rfl

/-- Nor does a message that is passed on, which changes nothing in the node. -/
theorem PassesOn.stutters {sh : Shared} {m : Message} {target : String} (h : PassesOn sh m target)
    (env : Env) (rt : Runtime) (peer : PeerRuntime) (i : ι) :
    rt.settle (dispatch C sh env rt.tables peer m) = rt ∧
      (dispatch C sh env rt.tables peer m).effects.filterMap (Effect.seen? i) = [] ∧
      ∀ call, Effect.encrypted call ∈ (dispatch C sh env rt.tables peer m).effects →
        call.msg.content = m.content ∧ call.msg.relayTarget = some target := by
  rw [dispatch_relay sh env rt.tables peer h]
  split
  · have hspec := forwardByStealth_spec (C := C) sh env target (m.withTtl (m.ttl - 1))
    refine ⟨?_, hspec.see i, ?_⟩
    · exact foldl_apply_of_not_reply _ _ fun κ tx payload => hspec.not_reply
    · intro call hcall
      obtain ⟨p, -, hto⟩ := hspec.of_encrypted hcall
      rw [hto.msg, Message.content_withTtl, Message.relayTarget_withTtl]
      exact ⟨rfl, h.addressed⟩
  · refine ⟨rfl, rfl, ?_⟩
    intro call hcall
    cases hcall

end StealthNet

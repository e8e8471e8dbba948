/-
  StealthNet.Network.Basic
  ────────────────────────
  A NETWORK OF DAEMONS.

  A node is stopped, waits for its bootstrap, runs, or has failed.  It acts by
  itself (`Phase.act`: start, a packet from the TUN, the periodic messages,
  the admin threads) and it receives datagrams (`Phase.receive`).  The network
  holds the datagrams in flight as a multiset: it delivers them in any order,
  keeps or forgets what it delivered, loses them, and in some runs delivers
  bytes no node ever sent.

    §1  the admin threads and the state of one node;
    §2  what a node does by itself;
    §3  what a node does with a datagram;
    §4  the network and its steps;
    §5  what a trace says.

  Handling a datagram is one step of the udp loop, which is one thread, but for
  the end of it: a pending request is answered in two.  The handler takes the
  sender out of the table, and sends on it when the table is unlocked.  The
  admin threads may run in between; the loop receives nothing before it sent.
-/
import StealthNet.Lib.Exec
import StealthNet.Daemon.Requests
import StealthNet.Daemon.Opening
import StealthNet.Daemon.Relay
import Mathlib.Data.Multiset.AddSub

namespace StealthNet

/-! ## §1. The state of one node. -/

/-- A request that drew an id: its thread, and the stealth its target
resolved to. -/
structure Ticket where
  kind : RequestKind
  id : UInt64
  tx : Tx
  target : String
  deriving DecidableEq

/-- A payload for an iteration of a thread. -/
structure Reply where
  kind : RequestKind
  tx : Tx
  payload : Payload kind

/-- What a running node changes: its tables, its admin threads, and the reply
the udp loop is about to send, whose sender it has taken out of the table. -/
structure Runtime where
  tables : Tables
  jobs : (κ : RequestKind) → Nat → Option (Job κ)
  sending : Option Reply

namespace Runtime

/-- The state when the loops start. -/
def init : Runtime := ⟨.init, fun _ _ => none, none⟩

/-- Write back thread `n` of kind `κ`. -/
def setJob (rt : Runtime) (κ : RequestKind) (n : Nat) (job : Job κ) : Runtime :=
  { rt with jobs := Function.update rt.jobs κ (Function.update (rt.jobs κ) n (some job)) }

end Runtime

/-- A payload reaches the iteration that created the channel, or nobody. -/
def Job.deliver {κ : RequestKind} (job : Job κ) (iteration : Nat) (payload : Payload κ) : Job κ :=
  -- an earlier iteration has closed its channel, and the send is ignored
  if job.results.length = iteration then
    { job with current := job.current.map fun req => { req with rx := req.rx ++ [payload] } }
  else job

namespace Runtime

/-- Send on a channel. -/
def reply (rt : Runtime) (κ : RequestKind) (tx : Tx) (payload : Payload κ) : Runtime :=
  match rt.jobs κ tx.job with
  | none => rt
  | some job => rt.setJob κ tx.job (job.deliver tx.iteration payload)

/-- What an effect changes inside the node: a reply waits to be sent. -/
def apply {C : Crates} (rt : Runtime) : Effect C → Runtime
  | .reply κ tx payload => { rt with sending := some ⟨κ, tx, payload⟩ }
  | _ => rt

/-- The udp loop sends the reply it holds. -/
def send (rt : Runtime) : Option Runtime :=
  rt.sending.map fun r => ({ rt with sending := none } : Runtime).reply r.kind r.tx r.payload

end Runtime

/-- Where a node is: not started, waiting for its bootstrap, running, or at the
end of its process. -/
inductive Phase
  | stopped
  | booting (config : Config) (peers : PeerTables) (requestId : UInt64)
  | running (sh : Shared) (rt : Runtime)
  | failed

/-- What a node did in one step: the message it dispatched, the id it drew,
its effects. -/
structure Activity (C : Crates) where
  dispatched : Option (PeerRuntime × Message)
  drew : Option Ticket
  effects : List (Effect C)

/-- Nothing was done. -/
def Activity.idle {C : Crates} : Activity C := ⟨none, none, []⟩

/-- A step that only sends. -/
def Activity.sending {C : Crates} (effects : List (Effect C)) : Activity C :=
  ⟨none, none, effects⟩

/-! ## §2. What a node does by itself. -/

/-- What sets a node off, other than a datagram. -/
inductive LocalEvent
  | start
  | bootstrapTimeout
  | tunRead (packet : Bytes)
  | keepalive (peerId : String)
  | clientRegister
  | adminRequest (n : Nat) (request : AdminRequest)
  | admin (κ : RequestKind) (n : Nat)
  | reply

section

variable (C : Crates) (env : Env)

/-- The tail of `new` and the start of the loops. -/
def Phase.launch (config : Config) (peers : PeerTables) : Phase :=
  match buildShared C env config peers with
  | .error _ => .failed
  | .ok sh => .running sh .init

/-- `new`, up to the first receive of a client. -/
def Phase.start (identity : Identity) (config : Config) : Phase × Activity C :=
  match peerTables C identity config with
  | .error _ => (.failed, .idle)
  | .ok peers =>
      if roleIsClient config then
        match startBootstrap C env config peers.byId with
        | (.error _, effects) => (.failed, .sending effects)
        | (.ok requestId, effects) => (.booting config peers requestId, .sending effects)
      else (.launch C env config peers, .idle)

/-- The thread of a request that waits for the network. -/
def AdminRequest.job : AdminRequest → Option ((κ : RequestKind) × Job κ)
  | .ping target count timeoutMs => some ⟨.ping, .start .ping target timeoutMs count.toNat⟩
  | .clients target timeoutMs => some ⟨.clients, .start .clients target timeoutMs 1⟩
  | _ => none

/-- Accept a request on the admin socket, as thread `n`. -/
def Runtime.accept (rt : Runtime) (n : Nat) (request : AdminRequest) : Option Runtime :=
  match request.job with
  | none => some rt
  -- each request has a thread of its own
  | some ⟨κ, job⟩ => if (rt.jobs κ n).isNone then some (rt.setJob κ n job) else none

/-- Advance an admin thread. -/
def Runtime.advance (sh : Shared) (rt : Runtime) (κ : RequestKind) (n : Nat) :
    Option (Runtime × Activity C) :=
  match rt.jobs κ n with
  | none => none
  | some job =>
      -- the iteration is told by the number of results before it
      let tx : Tx := ⟨n, job.results.length⟩
      match job.advance C sh env tx rt.tables with
      | none => none
      | some st =>
          some (({ rt with tables := st.tables } : Runtime).setJob κ n st.job,
            ⟨none, st.drew.map fun (id, target) => ⟨κ, id, tx, target⟩, st.effects⟩)

/-- A step of a node by itself. -/
def Phase.act (identity : Identity) (config : Config) :
    Phase → LocalEvent → Option (Phase × Activity C)
  | .stopped, .start => some (Phase.start C env identity config)
  | .booting _ _ _, .bootstrapTimeout => some (.failed, .idle)
  | .running sh rt, .tunRead packet =>
      if sh.tun.isSome then
        some (.running sh rt, .sending (handleLocalPacket C sh env packet).effects)
      else none
  | .running sh rt, .keepalive peerId =>
      some (.running sh rt, .sending (sendKeepalive C sh env peerId).effects)
  | .running sh rt, .clientRegister =>
      if roleIsClient sh.config then
        let (sent, t) := sendClientRegister C sh env rt.tables
        some (.running sh { rt with tables := t }, .sending sent.effects)
      else none
  | .running sh rt, .adminRequest n request =>
      (rt.accept n request).map fun rt => (.running sh rt, .idle)
  | .running sh rt, .admin κ n =>
      (rt.advance C env sh κ n).map fun (rt, did) => (.running sh rt, did)
  | .running sh rt, .reply => rt.send.map fun rt => (.running sh rt, .idle)
  | _, _ => none

/-! ## §3. What a node does with a datagram. -/

/-- The udp loop is not in the middle of a reply. -/
def Phase.listens : Phase → Bool
  | .running _ rt => rt.sending.isNone
  | _ => true

/-- What a node does with the bytes of a datagram: the receive loop of the
bootstrap, or `handle_datagram`. -/
def Phase.receive (packet : Bytes) : Phase → Phase × Activity C
  | .booting config peers requestId =>
      let did : Activity C := ⟨(openDatagram C peers.byId packet).toOption, none, []⟩
      match decodeBootstrapResponse C config peers.byId packet requestId with
      -- the `?` of the receive loop, and the client exits
      | .error _ => (.failed, did)
      | .ok none => (.booting config peers requestId, did)
      | .ok (some resp) =>
          match concludeBootstrap config resp with
          | (.error _, _) => (.failed, did)
          | (.ok (), config) => (.launch C env config peers, did)
  | .running sh rt =>
      let o := handleDatagram C sh env rt.tables packet
      -- a reply is sent in a step of its own, after the table is unlocked
      (.running sh (o.effects.foldl Runtime.apply { rt with tables := o.tables }),
        ⟨(openDatagram C sh.peersById packet).toOption, none, o.effects⟩)
  | .stopped => (.stopped, .idle)
  | .failed => (.failed, .idle)

end

/-! ## §4. The network. -/

/-- Who the nodes are, and which node has an address. -/
structure Net (ι : Type) where
  identity : ι → Identity
  config : ι → Config
  host : SocketAddr → Option ι

/-- A datagram in flight with the steps it comes from, the latest first. -/
structure Flight (C : Crates) where
  datagram : Datagram C
  trail : List Nat
  deriving DecidableEq

/-- The message a datagram in flight was made from. -/
def Flight.msg {C : Crates} (f : Flight C) : Message := f.datagram.call.msg

/-- The nodes and what is in flight; the clock counts the steps. -/
structure State (C : Crates) (ι : Type) where
  node : ι → Phase
  inflight : Multiset (Flight C)
  clock : Nat

/-- A step: of a node by itself, of a node with a datagram in flight or with
bytes from outside, or the loss of a datagram. -/
inductive Label (C : Crates) (ι : Type)
  | act (i : ι) (ev : LocalEvent) (env : Env) (did : Activity C)
  | deliver (i : ι) (f : Flight C) (keep : Bool) (env : Env) (did : Activity C)
  | inject (i : ι) (packet : Bytes) (env : Env) (did : Activity C)
  | drop (f : Flight C)

/-- The datagrams of some effects, in flight. -/
def launched {C : Crates} (trail : List Nat) (effects : List (Effect C)) : Multiset (Flight C) :=
  ↑((datagrams effects).map fun d => (⟨d, trail⟩ : Flight C))

section

variable {C : Crates} {ι : Type} [DecidableEq ι]

/-- Node `i` moves on and its datagrams join the ones left in flight. -/
def State.after (s : State C ι) (i : ι) (p : Phase) (left new : Multiset (Flight C)) :
    State C ι :=
  { node := Function.update s.node i p
    inflight := left + new
    clock := s.clock + 1 }

/-- The steps of the network. -/
inductive Step (net : Net ι) (s : State C ι) : Label C ι → State C ι → Prop
  | act {i : ι} {ev : LocalEvent} {env : Env} {p : Phase} {did : Activity C}
      (h : (s.node i).act C env (net.identity i) (net.config i) ev = some (p, did)) :
      Step net s (.act i ev env did)
        (s.after i p s.inflight (launched [s.clock] did.effects))
  | deliver {i : ι} {f : Flight C} {rest : Multiset (Flight C)} {keep : Bool} {env : Env}
      {p : Phase} {did : Activity C}
      (hf : s.inflight = f ::ₘ rest)
      (hi : net.host f.datagram.call.addr = some i)
      (hlisten : (s.node i).listens = true)
      (h : (s.node i).receive C env f.datagram.bytes = (p, did)) :
      Step net s (.deliver i f keep env did)
        -- a datagram that is kept may be delivered again
        (s.after i p (if keep then s.inflight else rest)
          (launched (s.clock :: f.trail) did.effects))
  | inject {i : ι} {packet : Bytes} {env : Env} {p : Phase} {did : Activity C}
      (hlisten : (s.node i).listens = true)
      (h : (s.node i).receive C env packet = (p, did)) :
      Step net s (.inject i packet env did)
        (s.after i p s.inflight (launched [s.clock] did.effects))
  | drop {f : Flight C} {rest : Multiset (Flight C)} (hf : s.inflight = f ::ₘ rest) :
      Step net s (.drop f) { s with inflight := rest, clock := s.clock + 1 }

/-- Nobody has started, and nothing is in flight. -/
def State.init (C : Crates) (ι : Type) : State C ι := ⟨fun _ => .stopped, 0, 0⟩

/-- A run of the network from the start, when every node is stopped. -/
abbrev Net.Run (net : Net ι) (tr : List (Label C ι)) (s : State C ι) : Prop :=
  Lib.Exec (Step net) (State.init C ι) tr s

end

/-! ## §5. What a trace says. -/

section

variable {C : Crates} {ι : Type}

/-- In this step node `i` did `did`. -/
def Label.Does (l : Label C ι) (i : ι) (did : Activity C) : Prop :=
  (∃ ev env, l = .act i ev env did) ∨ (∃ f keep env, l = .deliver i f keep env did) ∨
    ∃ packet env, l = .inject i packet env did

theorem Label.does_act (i : ι) (ev : LocalEvent) (env : Env) (did : Activity C) :
    (Label.act i ev env did : Label C ι).Does i did := Or.inl ⟨ev, env, rfl⟩

theorem Label.does_deliver (i : ι) (f : Flight C) (keep : Bool) (env : Env) (did : Activity C) :
    (Label.deliver i f keep env did : Label C ι).Does i did := Or.inr (Or.inl ⟨f, keep, env, rfl⟩)

theorem Label.does_inject (i : ι) (packet : Bytes) (env : Env) (did : Activity C) :
    (Label.inject i packet env did : Label C ι).Does i did := Or.inr (Or.inr ⟨packet, env, rfl⟩)

theorem Label.Does.act_inv {i j : ι} {ev : LocalEvent} {env : Env} {did did' : Activity C}
    (h : (Label.act j ev env did' : Label C ι).Does i did) : i = j ∧ did = did' := by
  rcases h with ⟨_, _, h⟩ | ⟨_, _, _, h⟩ | ⟨_, _, h⟩ <;> simp_all

theorem Label.Does.deliver_inv {i j : ι} {f : Flight C} {keep : Bool} {env : Env}
    {did did' : Activity C} (h : (Label.deliver j f keep env did' : Label C ι).Does i did) :
    i = j ∧ did = did' := by
  rcases h with ⟨_, _, h⟩ | ⟨_, _, _, h⟩ | ⟨_, _, h⟩ <;> simp_all

theorem Label.Does.inject_inv {i j : ι} {packet : Bytes} {env : Env} {did did' : Activity C}
    (h : (Label.inject j packet env did' : Label C ι).Does i did) : i = j ∧ did = did' := by
  rcases h with ⟨_, _, h⟩ | ⟨_, _, _, h⟩ | ⟨_, _, h⟩ <;> simp_all

theorem Label.not_does_drop {i : ι} {f : Flight C} {did : Activity C} :
    ¬ (Label.drop f : Label C ι).Does i did := by
  rintro (⟨_, _, h⟩ | ⟨_, _, _, h⟩ | ⟨_, _, h⟩) <;> simp at h

/-- A step is of one node. -/
theorem Label.Does.unique {l : Label C ι} {i j : ι} {did did' : Activity C} (h : l.Does i did)
    (h' : l.Does j did') : i = j ∧ did = did' := by
  cases l with
  | act => exact ⟨h.act_inv.1.trans h'.act_inv.1.symm, h.act_inv.2.trans h'.act_inv.2.symm⟩
  | deliver =>
      exact ⟨h.deliver_inv.1.trans h'.deliver_inv.1.symm,
        h.deliver_inv.2.trans h'.deliver_inv.2.symm⟩
  | inject =>
      exact ⟨h.inject_inv.1.trans h'.inject_inv.1.symm,
        h.inject_inv.2.trans h'.inject_inv.2.symm⟩
  | drop => exact absurd h not_does_drop

/-- The node of a step, with what it did. -/
def Label.activity : Label C ι → Option (ι × Activity C)
  | .act i _ _ did => some (i, did)
  | .deliver i _ _ _ did => some (i, did)
  | .inject i _ _ did => some (i, did)
  | .drop _ => none

theorem Label.does_iff {l : Label C ι} {i : ι} {did : Activity C} :
    l.Does i did ↔ l.activity = some (i, did) := by
  cases l <;> simp [Label.Does, Label.activity]

/-- The step is a section of thread `n` of node `i`. -/
def Label.advances [DecidableEq ι] (i : ι) (κ : RequestKind) (n : Nat) : Label C ι → Bool
  | .act j (.admin κ' n') _ _ => decide (j = i ∧ κ' = κ ∧ n' = n)
  | _ => false

theorem Label.advances_eq_true [DecidableEq ι] {l : Label C ι} {i : ι} {κ : RequestKind} {n : Nat} :
    l.advances i κ n = true ↔ ∃ env did, l = .act i (.admin κ n) env did := by
  constructor
  · intro h
    unfold Label.advances at h
    split at h
    · obtain ⟨rfl, rfl, rfl⟩ := of_decide_eq_true h
      exact ⟨_, _, rfl⟩
    · cases h
  · intro h
    obtain ⟨env, did, rfl⟩ := h
    exact decide_eq_true ⟨rfl, rfl, rfl⟩

/-- In this step the udp loop of node `i` sends a reply. -/
def Label.replies [DecidableEq ι] (i : ι) : Label C ι → Bool
  | .act j .reply _ _ => decide (j = i)
  | _ => false

theorem Label.replies_eq_true [DecidableEq ι] {l : Label C ι} {i : ι} :
    l.replies i = true ↔ ∃ env did, l = .act i .reply env did := by
  constructor
  · intro h
    unfold Label.replies at h
    split at h
    · obtain rfl := of_decide_eq_true h
      exact ⟨_, _, rfl⟩
    · cases h
  · intro h
    obtain ⟨env, did, rfl⟩ := h
    exact decide_eq_true rfl

/-- Who receives what in a step. -/
def Label.received : Label C ι → Option (ι × Env × Bytes)
  | .act _ _ _ _ => none
  | .deliver i f _ env _ => some (i, env, f.datagram.bytes)
  | .inject i packet env _ => some (i, env, packet)
  | .drop _ => none

/-- The effects of a step. -/
def Label.effects : Label C ι → List (Effect C)
  | .act _ _ _ did => did.effects
  | .deliver _ _ _ _ did => did.effects
  | .inject _ _ _ did => did.effects
  | .drop _ => []

theorem Label.Does.effects {l : Label C ι} {i : ι} {did : Activity C} (h : l.Does i did) :
    did.effects = l.effects := by
  rcases h with ⟨_, _, rfl⟩ | ⟨_, _, _, rfl⟩ | ⟨_, _, rfl⟩ <;> rfl

/-- An effect is of some node. -/
theorem Label.exists_does {l : Label C ι} {e : Effect C} (h : e ∈ l.effects) :
    ∃ i did, l.Does i did ∧ e ∈ did.effects := by
  cases l with
  | act i ev env did => exact ⟨i, did, does_act i ev env did, h⟩
  | deliver i f keep env did => exact ⟨i, did, does_deliver i f keep env did, h⟩
  | inject i packet env did => exact ⟨i, did, does_inject i packet env did, h⟩
  | drop f => cases h

/-- Node `i` dispatched `m`, as coming from `peer`. -/
def Dispatched (tr : List (Label C ι)) (i : ι) (peer : PeerRuntime) (m : Message) : Prop :=
  ∃ l ∈ tr, ∃ did, l.Does i did ∧ did.dispatched = some (peer, m)

/-- Node `i` drew the id of a request. -/
def Issued (tr : List (Label C ι)) (i : ι) (ticket : Ticket) : Prop :=
  ∃ l ∈ tr, ∃ did, l.Does i did ∧ did.drew = some ticket

/-- Node `i` called `send_direct`. -/
def Called (tr : List (Label C ι)) (i : ι) (call : SendCall C) : Prop :=
  ∃ l ∈ tr, ∃ did, l.Does i did ∧ Effect.encrypted call ∈ did.effects

/-- No datagram came from outside of the network. -/
def Honest (tr : List (Label C ι)) : Prop :=
  ∀ l ∈ tr, ∀ i packet env did, l ≠ .inject i packet env did

theorem Honest.append {tr tr' : List (Label C ι)} (h : Honest tr) (h' : Honest tr') :
    Honest (tr ++ tr') := fun l hl => (List.mem_append.mp hl).elim (h l) (h' l)

theorem Honest.of_append {tr tr' : List (Label C ι)} (h : Honest (tr ++ tr')) :
    Honest tr := fun l hl => h l (List.mem_append_left _ hl)

theorem Honest.of_append_right {tr tr' : List (Label C ι)} (h : Honest (tr ++ tr')) :
    Honest tr' := fun l hl => h l (List.mem_append_right _ hl)

/-- Nothing is lost: no datagram is dropped, and the sockets accept. -/
def LossFree (tr : List (Label C ι)) : Prop :=
  ∀ l ∈ tr, match l with
    | .act _ _ env _ => env.socketAccepts = true
    | .deliver _ _ _ env _ => env.socketAccepts = true
    | .inject _ _ env _ => env.socketAccepts = true
    | .drop _ => False

/-- The step loses nothing. -/
def Label.lossFree : Label C ι → Bool
  | .act _ _ env _ => env.socketAccepts
  | .deliver _ _ _ env _ => env.socketAccepts
  | .inject _ _ env _ => env.socketAccepts
  | .drop _ => false

theorem lossFree_iff {tr : List (Label C ι)} : LossFree tr ↔ tr.all Label.lossFree = true := by
  rw [List.all_eq_true]
  refine forall₂_congr fun l _ => ?_
  cases l <;> simp [Label.lossFree]

instance (tr : List (Label C ι)) : Decidable (LossFree tr) := decidable_of_iff _ lossFree_iff.symm

end

end StealthNet

/-
  StealthNet.Daemon.State
  ───────────────────────
  WHAT A DAEMON HOLDS (`daemon.rs`, `PeerRuntime` and `Shared`).

  `Shared` keeps the fields fixed at start-up, `Tables` the ones behind a
  mutex or an atomic.  The two pending tables hold channel ends; a channel is
  known by the admin request and the iteration of it that created it (`Tx`).

  What a call draws from outside (randomness, clocks, the verdict of the
  operating system, the order a hash map lists its values in) is its `Env`.
  What it does to the outside is a list of `Effect`s.
-/
import StealthNet.Admin

namespace StealthNet

open Lib (HashMap)

/-! ## §1. Peers. -/

/-- A peer with its address read and its link key derived. -/
structure PeerRuntime where
  cfg : PeerConfig
  addr : SocketAddr
  key : Key
  deriving DecidableEq

/-- The order of the two ids does not matter. -/
def symmetricContext (a b : String) : String :=
  if a ≤ b then s!"stealthnet:{a}<->{b}" else s!"stealthnet:{b}<->{a}"

theorem symmetricContext_comm (a b : String) : symmetricContext a b = symmetricContext b a := by
  unfold symmetricContext
  by_cases hab : a ≤ b
  · by_cases hba : b ≤ a
    · rw [String.le_antisymm hab hba]
    · rw [if_pos hab, if_neg hba]
  · rw [if_neg hab, if_pos ((String.le_total a b).resolve_left hab)]

/-- The loop body of `GatewayDaemon::new` that turns a configured peer into a
runtime one. -/
def linkPeer (C : Crates) (identity : Identity) (nodeId : String) (peer : PeerConfig) :
    Except String PeerRuntime := do
  let addr ← match SocketAddr.fromStr peer.addr with
    | none => .error s!"invalid peer addr {peer.addr}"
    | some addr => .ok addr
  let ctx := symmetricContext nodeId peer.id
  let key ← identity.deriveSharedKey C peer.publicKey (asBytes ctx)
  return { cfg := peer, addr, key }

/-- Both peer tables, filled in one pass over the configured peers. -/
structure PeerTables where
  byId : HashMap String PeerRuntime
  byStealth : HashMap String String

/-- The first peer that does not link fails the construction. -/
def peerTables (C : Crates) (identity : Identity) (config : Config) :
    Except String PeerTables := do
  let peers ← config.peers.mapM (linkPeer C identity config.node.id)
  -- a later peer with the same key overwrites, in each table for itself
  return { byId := HashMap.fill ∅ (fun p => p.cfg.id) (fun p => p) peers
           byStealth := HashMap.fill ∅ (fun p => p.cfg.stealth) (fun p => p.cfg.id) peers }

/-! ## §2. State. -/

/-- The device of a node that has one. -/
structure TunDevice where
  name : String
  deriving DecidableEq

/-- The fields of `Shared` that never change. -/
structure Shared where
  config : Config
  routing : RoutingTable
  tun : Option TunDevice
  peersById : HashMap String PeerRuntime
  peersByStealth : HashMap String String
  localStealth : String

/-- The two kinds of admin request that wait for an answer of the network. -/
inductive RequestKind
  | ping
  | clients
  deriving DecidableEq

/-- What the channel of a pending request carries. -/
abbrev Payload : RequestKind → Type
  | .ping => PingResult
  | .clients => String × List PublicClientEntry

/-- The sending end of a channel: who created it, and in which iteration. -/
structure Tx where
  job : Nat
  iteration : Nat
  deriving DecidableEq

/-- The fields of `Shared` behind a mutex, and the request counter. `drawn`
counts how often the counter was drawn from; no function reads it. -/
structure Tables where
  pendingPings : HashMap UInt64 Tx
  pendingClients : HashMap UInt64 Tx
  registeredClients : HashMap String PublicClientEntry
  nextRequestId : UInt64
  drawn : Nat

namespace Tables

/-- Nothing is pending and nobody registered; ids start at 1. -/
def init : Tables := ⟨∅, ∅, ∅, 1, 0⟩

/-- The pending table of a kind of request. -/
def pending (t : Tables) : RequestKind → HashMap UInt64 Tx
  | .ping => t.pendingPings
  | .clients => t.pendingClients

/-- Replace the pending table of a kind. -/
def setPending (t : Tables) (κ : RequestKind) (m : HashMap UInt64 Tx) : Tables :=
  match κ with
  | .ping => { t with pendingPings := m }
  | .clients => { t with pendingClients := m }

@[simp] theorem pending_setPending (t : Tables) (κ κ' : RequestKind) (m : HashMap UInt64 Tx) :
    (t.setPending κ m).pending κ' = if κ' = κ then m else t.pending κ' := by
  cases κ <;> cases κ' <;> rfl

/-- An entry after one was entered. -/
theorem lookup_pending_insert (t : Tables) (κ κ' : RequestKind) (id id' : UInt64) (tx : Tx) :
    ((t.setPending κ ((t.pending κ).insert id tx)).pending κ').lookup id'
      = if κ' = κ ∧ id' = id then some tx else (t.pending κ').lookup id' := by
  rw [pending_setPending]
  by_cases hκ : κ' = κ
  · subst hκ
    simp [HashMap.lookup_insert_eq]
  · simp [hκ]

/-- An entry after one was taken out. -/
theorem lookup_pending_erase (t : Tables) (κ κ' : RequestKind) (id id' : UInt64) :
    ((t.setPending κ ((t.pending κ).erase id)).pending κ').lookup id'
      = if κ' = κ ∧ id' = id then none else (t.pending κ').lookup id' := by
  rw [pending_setPending]
  by_cases hκ : κ' = κ
  · subst hκ
    simp [HashMap.lookup_erase_eq]
  · simp [hκ]

@[simp] theorem registeredClients_setPending (t : Tables) (κ : RequestKind)
    (m : HashMap UInt64 Tx) :
    (t.setPending κ m).registeredClients = t.registeredClients := by
  cases κ <;> rfl

@[simp] theorem drawn_setPending (t : Tables) (κ : RequestKind) (m : HashMap UInt64 Tx) :
    (t.setPending κ m).drawn = t.drawn := by
  cases κ <;> rfl

@[simp] theorem nextRequestId_setPending (t : Tables) (κ : RequestKind)
    (m : HashMap UInt64 Tx) :
    (t.setPending κ m).nextRequestId = t.nextRequestId := by
  cases κ <;> rfl

/-- `fetch_add(1)`, which wraps. -/
def drawRequestId (t : Tables) : UInt64 × Tables :=
  (t.nextRequestId, { t with nextRequestId := t.nextRequestId + 1, drawn := t.drawn + 1 })

end Tables

/-! ## §3. Outside of the daemon. -/

/-- What one call draws from its surroundings. -/
structure Env where
  nonce : Nonce
  socketAccepts : Bool
  nowMs : BitVec 128
  elapsedMs : BitVec 128
  tunCreated : Except String Unit
  valuesOrder : List PublicClientEntry → List PublicClientEntry
  valuesOrder_perm : ∀ l, (valuesOrder l).Perm l

/-- A call of `send_direct` that reached the encryption, with what it produced. -/
structure SendCall (C : Crates) where
  senderId : String
  addr : SocketAddr
  key : Key
  msg : Message
  nonce : Nonce
  plaintext : Bytes
  ciphertext : Bytes
  serialized : C.serializeMessage msg = some plaintext
  encrypted : C.aeadSeal key nonce (asBytes senderId) plaintext = some ciphertext
  deriving DecidableEq

/-- The frame that goes out for a call. -/
def SendCall.frame {C : Crates} (call : SendCall C) : OuterFrame :=
  { magic := MAGIC
    version := VERSION
    senderId := call.senderId
    nonce := call.nonce
    ciphertext := call.ciphertext }

/-- A datagram the socket accepted. -/
structure Datagram (C : Crates) where
  call : SendCall C
  bytes : Bytes
  framed : C.serializeFrame call.frame = some bytes
  deriving DecidableEq

/-- What a call did to the outside: an encryption, a datagram, a packet for the TUN,
or a reply for an admin thread. -/
inductive Effect (C : Crates)
  | encrypted (call : SendCall C)
  | udpSend (d : Datagram C)
  | tunWrite (packet : Bytes)
  | reply (κ : RequestKind) (tx : Tx) (payload : Payload κ)

end StealthNet

/-
  StealthNet.Daemon.Understanding
  ───────────────────────────────
  MUTUALLY CONFIGURED PEERS UNDERSTAND EACH OTHER.

  Two nodes each of which lists the other under its id and public key derive
  one link key: the context string does not depend on whose id comes first,
  and neither does the shared secret.  So what one sends, the other opens,
  whichever of the two decoders it goes through, and whatever the message.

    • `Lists.lookup`               — the entry of a listed node;
    • `GatewayDaemon.understands`  — keys, `handle_datagram` and
                                     `decode_bootstrap_response`.
-/
import StealthNet.Daemon.Opening
import StealthNet.Daemon.Peers
import StealthNet.Ideal

namespace StealthNet

variable {C : Crates}

/-- A configuration lists a node, once, under its id and public key. -/
structure Lists (C : Crates) (config : Config) (nodeId : String) (identity : Identity) : Prop where
  ids : (config.peers.map PeerConfig.id).Nodup
  listed : ∃ cfg ∈ config.peers, cfg.id = nodeId ∧
    decodePublicKey C cfg.publicKey = .ok (identity.publicKey C)

/-- The entry of a listed node. -/
theorem Lists.lookup {identity identity' : Identity} {config : Config} {nodeId' : String}
    {tables : PeerTables} (h : Lists C config nodeId' identity')
    (htables : peerTables C identity config = .ok tables) :
    ∃ p, tables.byId.lookup nodeId' = some p ∧ p.cfg.id = nodeId' ∧
      p.Linked C identity config.node.id ∧
      decodePublicKey C p.cfg.publicKey = .ok (identity'.publicKey C) := by
  obtain ⟨cfg, hcfg, rfl, hkey⟩ := h.listed
  obtain ⟨p, hp, rfl⟩ := peerTables_lookup_of_mem htables h.ids hcfg
  obtain ⟨-, -, hlinked⟩ := peerTables_lookup htables hp
  exact ⟨p, hp, rfl, hlinked, hkey⟩

/-- What the bootstrap does with a message, once it is decoded. -/
def bootstrapVerdict (requestId : UInt64) : Message → Except String (Option BootstrapResp)
  | .bootstrapResp resp => if resp.requestId = requestId then .ok (some resp) else .ok none
  | .error err => .error s!"bootstrap error: {err.message}"
  | _ => .ok none

theorem decodeBootstrapResponse_of_known (hb : C.BincodeRoundTrips) (ho : C.AeadCorrect)
    {peersById : Lib.HashMap String PeerRuntime} (d : Datagram C) {peer : PeerRuntime}
    (hp : peersById.lookup d.call.senderId = some peer) (hk : peer.key = d.call.key)
    (config : Config) (requestId : UInt64) :
    decodeBootstrapResponse C config peersById d.bytes requestId
      = bootstrapVerdict requestId d.call.msg := by
  rw [decodeBootstrapResponse_eq, inspect_of_known hb ho d hp hk]
  simp only [hb.message d.call.serialized]
  cases d.call.msg <;> rfl

/-- Two nodes that list each other. Whatever `A` sends to `B` with success, `B`
decodes to the same message with sender `A`: while it runs, in
`handle_datagram`, and before that, in `decode_bootstrap_response`. -/
theorem GatewayDaemon.understands (hb : C.BincodeRoundTrips) (ho : C.AeadCorrect)
    (hcomm : ∀ s s', C.x25519 s (C.x25519Public s') = C.x25519 s' (C.x25519Public s))
    {identityA identityB : Identity} {configA configB : Config} {envA : Env}
    {receivedA : List Bytes} {shA : Shared} {peersB : PeerTables}
    (hA : GatewayDaemon.new C envA identityA configA receivedA = .ok shA)
    (hB : peerTables C identityB configB = .ok peersB)
    (hAB : Lists C configA configB.node.id identityB)
    (hBA : Lists C configB configA.node.id identityA) :
    ∃ peerB peerA, shA.peersById.lookup configB.node.id = some peerB ∧
      peersB.byId.lookup configA.node.id = some peerA ∧ peerA.cfg.id = configA.node.id ∧
      peerA.key = peerB.key ∧
      ∀ env m, (sendToPeer C shA env configB.node.id m).result = .ok () →
        ∃ d, datagrams (sendToPeer C shA env configB.node.id m).effects = [d] ∧
          openDatagram C peersB.byId d.bytes = .ok (peerA, m) ∧
          (∀ envB receivedB shB, GatewayDaemon.new C envB identityB configB receivedB = .ok shB →
            ∀ env' t, handleDatagram C shB env' t d.bytes = dispatch C shB env' t peerA m) ∧
          ∀ config requestId, decodeBootstrapResponse C config peersB.byId d.bytes requestId
            = bootstrapVerdict requestId m := by
  obtain ⟨peersA, hpeersA, hbyId, -⟩ := GatewayDaemon.new_peers hA
  obtain ⟨peerB, hpeerB, hidB, hlinkedB, hkeyB⟩ := hAB.lookup hpeersA
  obtain ⟨peerA, hpeerA, hidA, hlinkedA, hkeyA⟩ := hBA.lookup hB
  have hkey : peerA.key = peerB.key :=
    hlinkedB.key_eq hcomm hlinkedA hidB hidA hkeyB hkeyA
  rw [← hbyId] at hpeerB
  refine ⟨peerB, peerA, hpeerB, hpeerA, hidA, hkey, fun env m hok => ?_⟩
  obtain ⟨d, ⟨p, hp, hto⟩, heffects⟩ := (sendToPeer_spec shA env _ m).exists_of_ok hok
  obtain rfl := Option.some.inj (hpeerB.symm.trans hp)
  -- `B` finds `A` under the id in the frame, with the key it was sealed with
  have hsender : peersB.byId.lookup d.call.senderId = some peerA := by
    rw [hto.senderId, GatewayDaemon.new_nodeId hA]
    exact hpeerA
  have hsealed : peerA.key = d.call.key := hkey.trans hto.key.symm
  have hopen := openDatagram_of_known hb ho d hsender hsealed
  rw [hto.msg] at hopen
  refine ⟨d, by rw [heffects]; rfl, hopen, fun envB receivedB shB hnew env' t => ?_,
    fun config requestId => ?_⟩
  · obtain ⟨peersB', hpeersB', hbyIdB, -⟩ := GatewayDaemon.new_peers hnew
    obtain rfl := Except.ok.inj (hB.symm.trans hpeersB')
    unfold handleDatagram
    rw [hbyIdB, hopen]
  · rw [decodeBootstrapResponse_of_known hb ho d hsender hsealed, hto.msg]

namespace Line

/-- The first node and the middle one list each other. -/
theorem lists_each_other :
    Lists Crates.ideal (config 0) (config 1).node.id (identity 1) ∧
      Lists Crates.ideal (config 1) (config 0).node.id (identity 0) := by
  have hkey := decodePublicKey_base64 Crates.keyAgreement_ideal
  exact ⟨⟨by decide, peer 1, List.mem_cons_self, rfl, hkey (identity 1)⟩,
    ⟨by decide, peer 0, List.mem_cons_self, rfl, hkey (identity 0)⟩⟩

/-- A request for a stealth that the first node sends to the middle one.
Evaluated at once. -/
theorem request_computed :
    (GatewayDaemon.new Crates.ideal (Env.at 0) (identity 0) (config 0) []).toOption.any (fun sh =>
      decide ((sendToPeer Crates.ideal sh (Env.at 1) (name 1) (request 0 "st-a")).result = .ok ()) &&
      (peerTables Crates.ideal (identity 1) (config 1)).toOption.isSome) = true := by
  decide +kernel

/-- The middle node understands it. -/
theorem request_understood :
    ∃ shA peersB peerA d,
      GatewayDaemon.new Crates.ideal (Env.at 0) (identity 0) (config 0) [] = .ok shA ∧
      peerTables Crates.ideal (identity 1) (config 1) = .ok peersB ∧
      datagrams (sendToPeer Crates.ideal shA (Env.at 1) (name 1) (request 0 "st-a")).effects = [d] ∧
      openDatagram Crates.ideal peersB.byId d.bytes = .ok (peerA, request 0 "st-a") ∧
      peerA.cfg.id = name 0 := by
  obtain ⟨shA, hA, hcheck⟩ := (Option.any_eq_true _ _).mp request_computed
  rw [Bool.and_eq_true, decide_eq_true_eq] at hcheck
  obtain ⟨peersB, hB⟩ := Option.isSome_iff_exists.mp hcheck.2
  have hA := Lib.Except.toOption_eq_some_iff.mp hA
  have hB := Lib.Except.toOption_eq_some_iff.mp hB
  obtain ⟨peerB, peerA, -, -, hid, -, hunderstood⟩ :=
    GatewayDaemon.understands Crates.bincodeRoundTrips_ideal Crates.idealAead_ideal.toAeadCorrect
      Crates.keyAgreement_ideal.x25519_comm hA hB lists_each_other.1 lists_each_other.2
  obtain ⟨d, hd, hopen, -⟩ := hunderstood (Env.at 1) (request 0 "st-a") hcheck.1
  exact ⟨shA, peersB, peerA, d, hA, hB, hd, hopen, hid⟩

end Line

end StealthNet

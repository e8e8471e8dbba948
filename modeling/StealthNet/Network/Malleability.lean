/-
  StealthNet.Network.Malleability
  ───────────────────────────────
  WHAT AN ATTACKER CAN MAKE OF A DATAGRAM.

  A datagram carries magic, version, sender id and nonce in the clear, and the
  attacker may change any byte of it.  Since a frame has one encoding
  (`Crates.CanonicalFrames`) and the ciphertext is of an earlier call, nothing
  of it can be changed: what a node dispatches is, byte by byte, what its peer
  made for it, with anything appended (`Net.Run.dispatched_iff`).
-/
import StealthNet.Network.Authentication
import StealthNet.Encoding

namespace StealthNet

variable {C : Crates} {ι : Type}

/-! ## §1. One receiver. -/

/-- The bytes of a call, with anything behind them, open at whoever has the
key of the call under its sender id. -/
theorem openDatagram_append (hb : C.BincodeRoundTrips) (hframes : C.CanonicalFrames)
    (ho : C.AeadCorrect) {peersById : Lib.HashMap String PeerRuntime} {call : SendCall C}
    {peer : PeerRuntime} {packet bytes rest : Bytes}
    (hp : peersById.lookup call.senderId = some peer) (hkey : call.key = peer.key)
    (hbytes : C.serializeFrame call.frame = some bytes) (hpacket : packet = bytes ++ rest)
    (hlen : packet.length ≤ 65535) : openDatagram C peersById packet = .ok (peer, call.msg) := by
  refine openDatagram_eq_ok_iff.mpr ⟨call.senderId, call.plaintext, ?_, hb.message call.serialized⟩
  refine inspect_eq_authentic_iff.mpr ⟨call.frame, ?_, rfl, rfl, rfl, hp, ?_⟩
  · exact (hframes.read_iff hlen).mpr ⟨bytes, rest, hbytes, hpacket⟩
  · rw [← hkey]
    exact ho.open_seal call.encrypted

/-- A frame with the fields of a call that passes the checks is its frame. -/
theorem frame_eq_of_fields {frame : OuterFrame} {call : SendCall C} (hmagic : frame.magic = MAGIC)
    (hversion : frame.version = VERSION) (hsender : call.senderId = frame.senderId)
    (hnonce : call.nonce = frame.nonce) (hct : call.ciphertext = frame.ciphertext) :
    frame = call.frame := by
  obtain ⟨magic, version, senderId, nonce, ciphertext⟩ := frame
  simp only [SendCall.frame, OuterFrame.mk.injEq]
  exact ⟨hmagic, hversion, hsender.symm, hnonce.symm, hct.symm⟩

/-! ## §2. Runs. -/

section

variable [DecidableEq ι] {net : Net ι} {tr : List (Label C ι)} {s s' : State C ι}

/-- A running node dispatches exactly the messages of which it receives the
bytes, and behind them anything: those of an earlier call of the peer, for this
node. -/
theorem Net.Run.dispatched_iff (hb : C.BincodeRoundTrips) (hframes : C.CanonicalFrames)
    (ho : C.AeadCorrect) (hpeers : HonestPeers C net) (hkeys : KeysDetermineSecrets C net)
    (hrun : net.Run tr s) {l : Label C ι} (hstep : Step net s l s')
    (hideal : Unforgeable net (tr ++ [l])) {B : ι} {packet : Bytes} {did : Activity C}
    (hl : l.Receives B packet did) {sh : Shared} {rt : Runtime} (hB : s.node B = .running sh rt)
    (hlen : packet.length ≤ 65535) {peer : PeerRuntime} {m : Message} :
    did.dispatched = some (peer, m) ↔
      ∃ A call bytes rest, Authentic net tr B peer m A call ∧
        sh.peersById.lookup (net.config A).node.id = some peer ∧ call.key = peer.key ∧
        C.serializeFrame call.frame = some bytes ∧ packet = bytes ++ rest := by
  have hbuilt := hrun.builtFrom B
  rw [hB] at hbuilt
  obtain ⟨peers, htables, hbyId, -⟩ := hbuilt.peers
  -- a running node dispatches what opens
  have hdispatched : did.dispatched = some (peer, m) ↔
      openDatagram C sh.peersById packet = .ok (peer, m) := by
    obtain ⟨env, hrec⟩ := hstep.received hl
    rw [hB] at hrec
    generalize s'.node B = p' at hrec
    cases hrec with
    | deaf h => rcases h with h | h <;> cases h
    | refused hopen =>
        rw [hopen]
        exact ⟨(fun h => nomatch h), (fun h => nomatch h)⟩
    | @handled _ _ peer' m' hopen =>
        rw [hopen]
        simp only [Option.some.injEq, Except.ok.injEq]
  rw [hdispatched]
  constructor
  · intro hopen
    obtain ⟨senderId, plaintext, hinspect, hm⟩ := openDatagram_eq_ok_iff.mp hopen
    obtain ⟨frame, hframe, hmagic, hversion, rfl, hpeer, haead⟩ :=
      inspect_eq_authentic_iff.mp hinspect
    obtain ⟨A, call, hcall, hkey, hsender, hnonce, hct⟩ := hideal tr l [] B packet did peers frame
      peer plaintext rfl hl htables hframe (hbyId ▸ hpeer) haead
    -- every field of the frame is the one of the call
    have hfields := frame_eq_of_fields hmagic hversion hsender hnonce hct
    obtain ⟨bytes, rest, hbytes, hpacket⟩ := (hframes.read_iff hlen).mp hframe
    rw [hfields] at hbytes
    rw [← hsender] at hpeer
    have hauth := hrun.authentic_of_key hpeers hkeys htables (hbyId ▸ hpeer) hcall hkey
    have hsame := openDatagram_append hb hframes ho hpeer hkey hbytes hpacket hlen
    obtain ⟨-, rfl⟩ := Prod.mk.inj (Except.ok.inj (hopen.symm.trans hsame))
    obtain ⟨peersA, id, q, -, -, hto⟩ := hrun.called hcall
    rw [hto.senderId] at hpeer
    exact ⟨A, call, bytes, rest, hauth, hpeer, hkey, hbytes, hpacket⟩
  · intro h
    obtain ⟨A, call, bytes, rest, hauth, hpeer, hkey, hbytes, hpacket⟩ := h
    obtain ⟨peersA, id, q, -, -, hto⟩ := hrun.called hauth.called
    rw [← hto.senderId] at hpeer
    rw [← hauth.msg]
    exact openDatagram_append hb hframes ho hpeer hkey hbytes hpacket hlen

end

namespace Line

/-- A datagram that is injected again at its receiver is the one that was
recorded. -/
theorem dispatched_under_attack :
    ∃ (tr : List (Label Crates.ideal (Fin 3))) (s s' : State Crates.ideal (Fin 3))
      (l : Label Crates.ideal (Fin 3)) (did : Activity Crates.ideal) (peer : PeerRuntime)
      (m : Message) (A : Fin 3) (call : SendCall Crates.ideal) (bytes rest : Bytes),
      net.Run tr s ∧ Step net s l s' ∧ l.Receives 1 seen did ∧ did.dispatched = some (peer, m) ∧
      Authentic net tr 1 peer m A call ∧ Crates.ideal.serializeFrame call.frame = some bytes ∧
      seen = bytes ++ rest := by
  have hattack : ((Sim.init Crates.ideal (Fin 3)).run net Env.at attack).any (fun r =>
      (r.2.step net Env.at (.inject 1 seen)).any fun r' => replays [] (r.1 ++ [r'.1]) &&
        (r.2.node 1).held.isSome &&
        r'.1.activity.any fun a => a.2.dispatched.isSome) = true := by
    decide +kernel
  have hlen : seen.length ≤ 65535 := by decide +kernel
  obtain ⟨⟨tr, s⟩, hrun, hcheck⟩ := (Option.any_eq_true _ _).mp hattack
  obtain ⟨⟨l, s'⟩, hstep, hcheck⟩ := (Option.any_eq_true _ _).mp hcheck
  obtain ⟨hcheck, hact⟩ := Bool.and_eq_true_iff.mp hcheck
  obtain ⟨hreplays, hheld⟩ := Bool.and_eq_true_iff.mp hcheck
  obtain ⟨⟨sh, rt⟩, hheld⟩ := Option.isSome_iff_exists.mp hheld
  obtain ⟨⟨i, did⟩, hact, hdid⟩ := (Option.any_eq_true _ _).mp hact
  obtain ⟨⟨peer, m⟩, hdid⟩ := Option.isSome_iff_exists.mp hdid
  have hrun := Sim.run_sound hrun
  have hsound := Sim.step_sound hstep
  obtain ⟨did', rfl⟩ := Sim.step_inject hstep
  obtain ⟨rfl, rfl⟩ := Prod.mk.inj (Option.some.inj hact)
  have hideal : Unforgeable net (tr ++ [_]) :=
    Net.Run.unforgeable Crates.bincodeRoundTrips_ideal Crates.idealAead_ideal (hrun.snoc hsound)
      hreplays
  obtain ⟨A, call, bytes, rest, hauth, -, -, hbytes, hpacket⟩ :=
    (Net.Run.dispatched_iff Crates.bincodeRoundTrips_ideal Crates.canonicalFrames_ideal
      Crates.idealAead_ideal.toAeadCorrect honestPeers keysDetermineSecrets hrun hsound hideal
      (Or.inr ⟨_, rfl⟩) (Sim.running_iff.mpr hheld) hlen).mp hdid
  exact ⟨tr, _, _, _, _, peer, m, A, call, bytes, rest, hrun, hsound, Or.inr ⟨_, rfl⟩, hdid, hauth,
    hbytes, hpacket⟩

end Line

end StealthNet
